import CKGameServer.Inventory.Load
import CKGameServer.Library.Deadline

/-!
The schedule of the shop (`TaskProcessThread`, `REQUEST_SHOP_UPDATE`, `ProcessShopUpdateDBResult`).

What `game:shop_state` stores is an item on display until a deadline; the command of a task is a
tick, a reset or an extension of it.

* `storedOffer`: the pair that is stored.
* `shopCommand`: the command of a task.
* `requestShopUpdate_refines`: the branch does to the stored pair what its command does to the
  display, and answers with what it stores.
* `ShopRun.step`: a run of the Redis thread over such tasks.
* `shopSchedule`: along every run the stored pair keeps its schedule, and the last response
  carries it.
-/

namespace CKGameServer

open Memory Deadline

/-! ### The stored pair -/

/-- `current_item` and `next_update_ts`, where both are stored as numbers. -/
def storedOffer (db : Store) : Display Int32 :=
  match db.hget true shopStateKey currentItemField, db.hget true shopStateKey nextUpdateField with
  | some item, some next =>
    match stoi item, stoull next with
    | .ok itemID, .ok nextUpdate => some (itemID, nextUpdate.toNat)
    | _, _ => none
  | _, _ => none

/-- The database stores the display: nothing at all where it is empty, and otherwise the two
numbers as the branch writes them. -/
def StoresOffer (db : Store) : Display Int32 → Prop
  | none => db (cstr shopStateKey) = none
  | some (itemID, next) =>
    db.hget true shopStateKey currentItemField = some (toString32 itemID) ∧
      db.hget true shopStateKey nextUpdateField = some (Decimal.toDecimal next) ∧
      0 < next ∧ next < 2 ^ 64

/-- `101 + rand() % 5`. -/
def resetItem (env : RedisEnv) : Int32 := 101 + Int32.ofNat (env.rand 0 % 5)

/-- The command of a task. -/
def shopCommand (env : RedisEnv) (task : RedisTask) : Command Int32 :=
  if commandValue task = 0 then .reset (resetItem env) (env.getNextMidnight env.now).toNat
  else if 0 < (commandValue task).toInt then
    .extend ((commandValue task).toInt.toNat * 3600) 101
  else .tick (resetItem env) (env.getNextMidnight env.now).toNat

/-! ### Reading and writing the pair -/

section Stored

variable {db : Store} {d : Display Int32}

lemma stoull_toDecimal {n : ℕ} (h : n < 2 ^ 64) :
    stoull (Decimal.toDecimal n) = .ok (UInt64.ofNat n) := by
  have hofInt : UInt64.ofInt (n : ℤ) = UInt64.ofNat n := by
    rw [← UInt64.toNat_inj, UInt64.ofInt, UInt64.toNat_ofNat', UInt64.toNat_ofNat']
    omega
  rw [stoull, Decimal.parse_toDecimal]
  simp only [Int.natAbs_natCast, hofInt]
  rw [if_pos h]

lemma toDecimal_ne_nil (n : ℤ) : Decimal.toDecimal n ≠ [] := fun h => by
  have hparse := Decimal.parse_toDecimal n
  rw [h] at hparse
  cases hparse

/-- Nothing is read from a key that does not exist. -/
lemma hget_of_none {key : Bytes} (h : db (cstr key) = none) (reply : Bool) (field : Bytes) :
    db.hget reply key field = none := by
  rw [Store.hget, Store.hashAt, h]
  exact ite_self none

/-- `HGET` after an `HSET` to the same key. -/
lemma hget_hset {key : Bytes} (h : ∀ s, db (cstr key) ≠ some (.str s))
    (field value field' : Bytes) :
    (db.hset true key field value).hget true key field' =
      if cstr field' = cstr field then some (cstr (cstr value)) else db.hget true key field' := by
  rw [Store.hget, Store.hget, if_pos rfl, if_pos rfl]
  cases hdb : db (cstr key) with
  | none =>
      have hbefore : db.hashAt key = none := by rw [Store.hashAt, hdb]
      have hafter : (db.hset true key field value).hashAt key =
          some (AList.insert (cstr field) (cstr value) ∅) := by
        rw [Store.hset, if_pos rfl, hdb, Store.hashAt, AList.insert_empty]
        simp
      rw [hbefore, hafter, Option.bind_some, Option.bind_none]
      by_cases hfield : cstr field' = cstr field
      · rw [if_pos hfield, hfield, AList.lookup_insert]
        rfl
      · rw [if_neg hfield, AList.lookup_insert_ne hfield, AList.lookup_empty]
        rfl
  | some v =>
      cases v with
      | str s => exact absurd hdb (h s)
      | hash fields =>
          have hbefore : db.hashAt key = some fields := by rw [Store.hashAt, hdb]
          rw [Store.hashAt_hset _ _ hbefore, hbefore, Option.bind_some, Option.bind_some]
          by_cases hfield : cstr field' = cstr field
          · rw [if_pos hfield, hfield, AList.lookup_insert]
            rfl
          · rw [if_neg hfield, AList.lookup_insert_ne hfield]

/-- A key stays no string when a field is set. -/
lemma hset_ne_str {key : Bytes} (h : ∀ s, db (cstr key) ≠ some (.str s)) (reply : Bool)
    (field value s : Bytes) : db.hset reply key field value (cstr key) ≠ some (.str s) := by
  rw [Store.hset]
  split
  · cases hdb : db (cstr key) with
    | none => simp
    | some v =>
        cases v with
        | str s' => exact absurd hdb (h s')
        | hash fields => simp
  · exact h s

/-- The item an update leaves, as `HGET` finds it. -/
lemma hget_shopStore_item {env : RedisEnv} (h : ∀ s, db (cstr shopStateKey) ≠ some (.str s))
    (itemID : Int32) (next : UInt64) :
    (shopStore env db itemID next).hget true shopStateKey currentItemField =
      if env.replies 2 then some (toString32 itemID)
      else db.hget true shopStateKey currentItemField := by
  have hne : cstr currentItemField ≠ cstr nextUpdateField := by decide
  rw [shopStore]
  cases env.replies 3 <;> cases env.replies 2 <;>
    simp [hget_hset (hset_ne_str h _ _ _), hget_hset h, hne]

/-- The deadline an update leaves, as `HGET` finds it. -/
lemma hget_shopStore_next {env : RedisEnv} (h : ∀ s, db (cstr shopStateKey) ≠ some (.str s))
    (itemID : Int32) (next : UInt64) :
    (shopStore env db itemID next).hget true shopStateKey nextUpdateField =
      if env.replies 3 then some (Decimal.toDecimal next.toNat)
      else db.hget true shopStateKey nextUpdateField := by
  have hne : cstr nextUpdateField ≠ cstr currentItemField := by decide
  have hzero := cstr_eq_self (Decimal.zero_notMem_toDecimal next.toNat)
  rw [shopStore]
  cases env.replies 3 <;> cases env.replies 2 <;>
    simp [hget_hset (hset_ne_str h _ _ _), hget_hset h, hne, hzero]

/-- The pair is what is stored. -/
lemma storedOffer_eq (h : StoresOffer db d) : storedOffer db = d := by
  cases d with
  | none => rw [storedOffer, hget_of_none h]
  | some p =>
      obtain ⟨hitem, hnext, -, hlt⟩ := h
      rw [storedOffer, hitem, hnext]
      simp only [stoi_toString32, stoull_toDecimal hlt, UInt64.toNat_ofNat']
      rw [Nat.mod_eq_of_lt hlt]

lemma readNextTime_eq (h : StoresOffer db d) :
    readNextTime true db = .ok (UInt64.ofNat (d.elim 0 Prod.snd)) := by
  rw [readNextTime]
  cases d with
  | none =>
      rw [hget_of_none h]
      rfl
  | some p =>
      obtain ⟨-, hnext, -, hlt⟩ := h
      simp only [hnext, Option.getD_some]
      rw [if_neg (toDecimal_ne_nil _), stoull_toDecimal hlt]
      rfl

lemma readCurrentItem_eq (h : StoresOffer db d) :
    readCurrentItem true db = .ok (d.elim 101 Prod.fst) := by
  rw [readCurrentItem]
  cases d with
  | none =>
      rw [hget_of_none h]
      rfl
  | some p =>
      obtain ⟨hitem, -, -, -⟩ := h
      have hne : toString32 p.1 ≠ [] := toDecimal_ne_nil _
      simp only [hitem, Option.getD_some]
      rw [if_neg hne, stoi_toString32]
      rfl

lemma StoresOffer.ne_str (h : StoresOffer db d) (s : Bytes) :
    db (cstr shopStateKey) ≠ some (.str s) := by
  intro hstr
  cases d with
  | none => cases h.symm.trans hstr
  | some p =>
      have hitem := h.1
      rw [Store.hget, if_pos rfl, Store.hashAt, hstr] at hitem
      cases hitem

/-- The pair the branch writes is stored. -/
lemma storesOffer_shopStore {env : RedisEnv} {itemID : Int32} {next : UInt64}
    (h : ∀ s, db (cstr shopStateKey) ≠ some (.str s)) (h2 : env.replies 2 = true)
    (h3 : env.replies 3 = true) (hpos : 0 < next.toNat) :
    StoresOffer (shopStore env db itemID next) (some (itemID, next.toNat)) := by
  have hne : cstr currentItemField ≠ cstr nextUpdateField := by decide
  rw [shopStore, h2, h3]
  refine ⟨?_, ?_, hpos, next.toNat_lt⟩
  · rw [hget_hset (hset_ne_str h _ _ _), if_neg hne, hget_hset h, if_pos rfl, cstr_toString32,
      cstr_toString32]
  · have hzero := cstr_eq_self (Decimal.zero_notMem_toDecimal next.toNat)
    rw [hget_hset (hset_ne_str h _ _ _), if_pos rfl, hzero, hzero]

end Stored

/-! ### The branch -/

/-- The command values the server pushes: the tick, the reset, and hours whose seconds fit an
`int`. -/
def IsShopCommand (commandValue : Int32) : Prop :=
  commandValue = -1 ∨ commandValue = 0 ∨ 0 < commandValue.toInt ∧ commandValue.toInt < 596524

instance (commandValue : Int32) : Decidable (IsShopCommand commandValue) :=
  inferInstanceAs (Decidable (_ ∨ _ ∨ _))

section Branch

variable {env : RedisEnv} {db : Store} {task : RedisTask} {d : Display Int32}

/-- The seconds of some hours. -/
lemma toNat_seconds {n : Int32} (hpos : 0 < n.toInt) (hlt : n.toInt < 596524) :
    (UInt64.ofInt (n * 3600).toInt).toNat = n.toInt.toNat * 3600 := by
  have hmul : (n * 3600).toInt = n.toInt * 3600 := by
    rw [Int32.toInt_mul, show (3600 : Int32).toInt = 3600 from rfl]
    apply Int.bmod_eq_of_le <;> omega
  rw [hmul, UInt64.ofInt, UInt64.toNat_ofNat']
  omega

/-- **The arithmetic of the branch** is that of its command: what it stores is what the command
puts up. -/
lemma shopUpdate_eq_put (h : StoresOffer db d) (hcommand : IsShopCommand (commandValue task))
    (hnow : env.now.toNat < 2 ^ 63) (hlt : ∀ p, d = some p → p.2 < 2 ^ 63) :
    (shopUpdate env (commandValue task) (UInt64.ofNat (d.elim 0 Prod.snd))
        (d.elim 101 Prod.fst)).map (fun p => (p.1, p.2.toNat)) =
      (shopCommand env task).put env.now.toNat d := by
  have hstored : (UInt64.ofNat (d.elim 0 Prod.snd)).toNat = d.elim 0 Prod.snd := by
    rw [UInt64.toNat_ofNat', Nat.mod_eq_of_lt]
    cases d with
    | none => decide
    | some p => exact h.2.2.2
  have hbound : d.elim 0 Prod.snd < 2 ^ 63 := by
    cases d with
    | none => decide
    | some p => exact hlt p rfl
  rw [shopUpdate, shopCommand]
  simp only
  rcases hcommand with htick | hreset | ⟨hpos, hhours⟩
  · have h0 : commandValue task ≠ 0 := by rw [htick]; decide
    have hneg : ¬0 < (commandValue task).toInt := by rw [htick]; decide
    rw [if_neg h0, if_neg hneg, if_neg h0, if_neg hneg, Command.put]
    -- a deadline of zero is read where none is stored
    have hexpired : UInt64.ofNat (d.elim 0 Prod.snd) = 0 ∨
        UInt64.ofNat (d.elim 0 Prod.snd) ≤ env.now ↔ Expired env.now.toNat d := by
      rw [← UInt64.toNat_inj, UInt64.le_iff_toNat_le, hstored]
      cases d with
      | none => simp [Expired]
      | some p =>
          have hp : 0 < p.2 := h.2.2.1
          constructor
          · rintro (hzero | hle) x t heq
            · exact absurd hzero hp.ne'
            · obtain rfl := Option.some.inj heq
              exact hle
          · exact fun hexp => .inr (hexp p.1 p.2 rfl)
    by_cases hexp : Expired env.now.toNat d
    · rw [if_pos ⟨htick, hexpired.mpr hexp⟩, if_pos hexp]
      rfl
    · rw [if_neg (fun hand => hexp (hexpired.mp hand.2)), if_neg hexp]
      rfl
  · rw [if_pos hreset, if_pos hreset]
    rfl
  · have h0 : commandValue task ≠ 0 := fun hzero => by
      rw [hzero] at hpos
      exact absurd hpos (by decide)
    have hseconds := toNat_seconds hpos hhours
    rw [if_neg h0, if_pos hpos, if_neg h0, if_pos hpos]
    have hadd : ∀ x : UInt64, x.toNat < 2 ^ 63 →
        (x + UInt64.ofInt (commandValue task * 3600).toInt).toNat =
          x.toNat + (commandValue task).toInt.toNat * 3600 := fun x hx => by
      rw [UInt64.toNat_add, hseconds, Nat.mod_eq_of_lt (by omega)]
    have hcompare := UInt64.lt_iff_toNat_lt (a := UInt64.ofNat (d.elim 0 Prod.snd)) (b := env.now)
    rw [hstored] at hcompare
    split
    · rename_i hless
      rw [hcompare] at hless
      rw [Option.map_some, hadd _ hnow]
      cases d with
      | none => rfl
      | some p =>
          have hp : p.2 < env.now.toNat := hless
          rw [Command.put, Nat.max_eq_left hp.le]
          rfl
    · rename_i hge
      rw [hcompare] at hge
      rw [Option.map_some, hadd _ (by rw [hstored]; exact hbound), hstored]
      cases d with
      | none =>
          have hp : ¬0 < env.now.toNat := hge
          rw [Command.put, show env.now.toNat = 0 by omega]
          rfl
      | some p =>
          have hp : ¬p.2 < env.now.toNat := hge
          rw [Command.put, Nat.max_eq_right (by omega)]
          rfl

/-- The response carries the pair, as `ProcessShopUpdateDBResult` reads it. -/
lemma shopUpdateResponse_reads (env : RedisEnv) (itemID : Int32) {next : UInt64}
    (hlt : next.toNat < 2 ^ 63) :
    int32At (shopUpdateResponse env itemID next).pData 0 = itemID ∧
      int64At (shopUpdateResponse env itemID next).pData 4 = next.toNat := by
  constructor
  · refine int32At_of_int32Bytes fun k hk => ?_
    have hsize : k < redisShopResSize := hk.trans (by decide)
    rw [Nat.zero_add, shopUpdateResponse, RedisTask.make_pData_lt hsize, redisShopRes,
      View.append_apply_lt hk]
  · have hsize : ∀ k < 8, 4 + k < redisShopResSize := fun k hk => Nat.add_lt_add_left hk 4
    have hbytes : (shopUpdateResponse env itemID next).pData.natLE 4 8 = next.toNat := by
      calc (shopUpdateResponse env itemID next).pData.natLE 4 8
          = (View.ofNatLE next.toNat).natLE 0 8 := View.natLE_congr fun k hk => by
            rw [shopUpdateResponse, RedisTask.make_pData_lt (hsize k hk), redisShopRes,
              View.append_apply_add, Nat.zero_add]
        _ = next.toNat := View.natLE_ofNatLE (next.toNat_lt)
    have hint : int64At (shopUpdateResponse env itemID next).pData 4 =
        Int.bmod (((shopUpdateResponse env itemID next).pData.natLE 4 8 : ℕ) : ℤ) (2 ^ 64) := rfl
    rw [hint, hbytes]
    apply Int.bmod_eq_of_le <;> omega

/-- **The branch refines its command**: with every command of Redis answered, it does to the
stored pair what its command does to the display, and answers with what it puts up. -/
theorem requestShopUpdate_refines (h : StoresOffer db d) (htask : task.taskID = .requestShopUpdate)
    (hcommand : IsShopCommand (commandValue task)) (hreplies : ∀ k < 4, env.replies k = true)
    (hnow : env.now.toNat < 2 ^ 63) (hlt : ∀ p, d = some p → p.2 < 2 ^ 63)
    (hvalid : (shopCommand env task).Valid env.now.toNat) :
    ∃ out, taskProcess env db task = .ok out ∧
      StoresOffer out.store ((shopCommand env task).apply env.now.toNat d) ∧
      ((shopCommand env task).put env.now.toNat d = none ∧ out.store = db ∧ out.responses = [] ∨
        ∃ itemID next, (shopCommand env task).put env.now.toNat d = some (itemID, next.toNat) ∧
          out.responses = [shopUpdateResponse env itemID next]) := by
  have hrun : taskProcess env db task = .ok (updateShop env db task
      (UInt64.ofNat (d.elim 0 Prod.snd)) (d.elim 101 Prod.fst)) := by
    rw [taskProcess, htask]
    simp only
    rw [requestShopUpdate_eq, hreplies 0 (by decide), hreplies 1 (by decide), readNextTime_eq h,
      readCurrentItem_eq h]
    rfl
  have hput := shopUpdate_eq_put h hcommand hnow hlt
  have hahead := Command.ahead_apply (d := d) hvalid
  refine ⟨_, hrun, ?_⟩
  rw [updateShop]
  cases hupdate : shopUpdate env (commandValue task) (UInt64.ofNat (d.elim 0 Prod.snd))
      (d.elim 101 Prod.fst) with
  | none =>
      rw [hupdate, Option.map_none] at hput
      rw [Command.apply_of_put_none hput.symm]
      exact ⟨h, .inl ⟨hput.symm, rfl, rfl⟩⟩
  | some p =>
      obtain ⟨itemID, next⟩ := p
      rw [hupdate, Option.map_some] at hput
      rw [Command.apply_of_put hput.symm] at hahead ⊢
      obtain ⟨x, t, heq, hfuture⟩ := hahead
      obtain ⟨-, rfl⟩ := Prod.mk.inj (Option.some.inj heq)
      exact ⟨storesOffer_shopStore h.ne_str (hreplies 2 (by decide)) (hreplies 3 (by decide))
          (Nat.zero_lt_of_lt hfuture), .inr ⟨itemID, next, hput.symm, rfl⟩⟩

end Branch

/-! ### Runs -/

/-- The database, and the `RESPONSE_SHOP_UPDATE` tasks pushed so far. -/
structure ShopRun where
  store : Store
  responses : List RedisTask := []

namespace ShopRun

/-- The stored pair. -/
def offer (s : ShopRun) : Display Int32 := storedOffer s.store

/-- The Redis thread takes a task. -/
def step (s : ShopRun) (x : RedisEnv × RedisTask) : Option ShopRun :=
  (taskProcess x.1 s.store x.2).toOption.map fun out =>
    { store := out.store, responses := s.responses ++ out.responses }

/-- The time of a task. -/
def now (x : RedisEnv × RedisTask) : ℕ := x.1.now.toNat

/-- All deadlines are below `2 ^ 63`. -/
def Below (s : ShopRun) : Prop := ∀ p ∈ s.offer, p.2 < 2 ^ 63

instance (s : ShopRun) : Decidable s.Below := inferInstanceAs (Decidable (∀ p ∈ s.offer, _))

/-- An update of the shop with one of the three commands. Redis answers, the next midnight is to
come, and the timestamps are and stay below `2 ^ 63`. -/
structure Scheduled (s : ShopRun) (x : RedisEnv × RedisTask) : Prop where
  task : x.2.taskID = .requestShopUpdate
  command : IsShopCommand (commandValue x.2)
  replies : ∀ k < 4, x.1.replies k = true
  midnight : x.1.now < x.1.getNextMidnight x.1.now
  now : now x < 2 ^ 63
  below : ∀ s' ∈ s.step x, s'.Below

instance (s : ShopRun) (x : RedisEnv × RedisTask) : Decidable (s.Scheduled x) :=
  decidable_of_iff (x.2.taskID = .requestShopUpdate ∧ IsShopCommand (commandValue x.2) ∧
      (∀ k < 4, x.1.replies k = true) ∧ x.1.now < x.1.getNextMidnight x.1.now ∧ now x < 2 ^ 63 ∧
      ∀ s' ∈ s.step x, s'.Below)
    ⟨fun ⟨h1, h2, h3, h4, h5, h6⟩ => ⟨h1, h2, h3, h4, h5, h6⟩,
      fun h => ⟨h.task, h.command, h.replies, h.midnight, h.now, h.below⟩⟩

/-- What a task may do to the stored pair: a tick changes it only where there is none or it has
expired; the deadline is in the future; hours keep the item that was stored. -/
structure KeepsSchedule (x : RedisEnv × RedisTask) (s s' : ShopRun) : Prop where
  tick : commandValue x.2 = -1 → s'.offer ≠ s.offer → Expired (now x) s.offer
  ahead : Ahead (now x) s'.offer
  addHours : 0 < (commandValue x.2).toInt → ∀ itemID next, s.offer = some (itemID, next) →
    ∃ next', s'.offer = some (itemID, next')

/-- The last response, if there is one, carries the stored pair. -/
def Announced (s : ShopRun) : Prop :=
  ∀ task, s.responses.getLast? = some task → task.taskID = .responseShopUpdate ∧
    s.offer = some (int32At task.pData 0, (int64At task.pData 4).toNat) ∧
      0 ≤ int64At task.pData 4

/-- What a run keeps: the pair is stored as the branch writes it. -/
structure Sound (s : ShopRun) : Prop where
  stores : StoresOffer s.store s.offer
  below : s.Below
  announced : s.Announced

section Step

variable {s : ShopRun} {x : RedisEnv × RedisTask}

lemma Scheduled.valid (h : s.Scheduled x) : (shopCommand x.1 x.2).Valid (ShopRun.now x) := by
  have hmidnight := UInt64.lt_iff_toNat_lt.mp h.midnight
  rw [shopCommand]
  split
  · exact hmidnight
  · split
    · rename_i hpos
      exact Nat.mul_pos (by omega) (by decide)
    · exact hmidnight

/-- The value of a tick is that of no other command. -/
lemma isTick_of_commandValue (h : commandValue x.2 = -1) : (shopCommand x.1 x.2).IsTick := by
  rw [shopCommand, if_neg (by rw [h]; decide), if_neg (by rw [h]; decide)]
  trivial

/-- **One task**: it does to the stored pair what its command does, and keeps what a run keeps. -/
lemma Sound.step (hs : s.Sound) (h : s.Scheduled x) :
    ∃ s', s.step x = some s' ∧ s'.Sound ∧
      s'.offer = (shopCommand x.1 x.2).apply (ShopRun.now x) s.offer ∧
      ((shopCommand x.1 x.2).put (ShopRun.now x) s.offer = none → s' = s) := by
  obtain ⟨out, hout, hstores, hresponses⟩ := requestShopUpdate_refines hs.stores h.task h.command
    h.replies h.now hs.below h.valid
  have hstep : s.step x = some ⟨out.store, s.responses ++ out.responses⟩ := by
    rw [ShopRun.step, hout]
    rfl
  have hoffer := storedOffer_eq hstores
  have hbelow := h.below _ hstep
  refine ⟨_, hstep, ⟨?_, hbelow, ?_⟩, hoffer, fun hnone => ?_⟩
  · rw [offer, hoffer]
    exact hstores
  · rcases hresponses with ⟨hnone, hstore, hempty⟩ | ⟨itemID, next, hput, htask⟩
    · rw [hstore, hempty, List.append_nil]
      exact hs.announced
    · intro task hlast
      rw [htask, List.getLast?_concat, Option.some.injEq] at hlast
      subst hlast
      have hstored : storedOffer out.store = some (itemID, next.toNat) :=
        hoffer.trans (Command.apply_of_put hput)
      obtain ⟨hitem, hnext⟩ := shopUpdateResponse_reads x.1 itemID (hbelow _ hstored)
      refine ⟨rfl, ?_, ?_⟩
      · rw [hitem, hnext]
        exact hstored
      · rw [hnext]
        exact Int.natCast_nonneg _
  · rcases hresponses with ⟨-, hstore, hempty⟩ | ⟨itemID, next, hput, -⟩
    · rw [hstore, hempty, List.append_nil]
    · cases hnone.symm.trans hput

lemma Sound.keepsSchedule (hs : s.Sound) (h : s.Scheduled x) {s' : ShopRun}
    (hstep : s.step x = some s') : KeepsSchedule x s s' := by
  obtain ⟨s'', hstep', -, hoffer, -⟩ := hs.step h
  obtain rfl := Option.some.inj (hstep.symm.trans hstep')
  refine ⟨fun htick hne => ?_, ?_, fun hpos itemID next hbefore => ?_⟩
  · rw [hoffer] at hne
    exact Command.expired_of_apply_tick_ne (isTick_of_commandValue htick) hne
  · rw [hoffer]
    exact Command.ahead_apply h.valid
  · have hne : commandValue x.2 ≠ 0 := fun hzero => by
      rw [hzero] at hpos
      exact absurd hpos (by decide)
    rw [hoffer, hbefore, shopCommand, if_neg hne, if_pos hpos, Command.apply_extend]
    exact ⟨_, rfl⟩

/-- Ticks before the deadline leave everything as it is. -/
lemma Sound.run_ticks {s' : ShopRun} {ticks : List (RedisEnv × RedisTask)} (hs : s.Sound)
    (h : Runs.Along ShopRun.step Scheduled s ticks)
    (hticks : ∀ x ∈ ticks, commandValue x.2 = -1 ∧ Ahead (ShopRun.now x) s.offer)
    (hrun : Runs.run ShopRun.step s ticks = some s') : s' = s := by
  induction ticks with
  | nil => exact (Option.some.inj hrun).symm
  | cons x ticks ih =>
      obtain ⟨s₁, hstep, hs₁, -, hidle⟩ := hs.step h.1
      obtain ⟨htick, hahead⟩ := hticks x List.mem_cons_self
      obtain rfl := hidle (Command.put_tick_of_ahead (isTick_of_commandValue htick) hahead)
      rw [Runs.run_cons, hstep, Option.bind_some] at hrun
      exact ih (h.2 _ hstep) (fun y hy => hticks y (List.mem_cons_of_mem _ hy)) hrun

end Step

/-- **The schedule of the shop.** From a database without a shop, along every run of updates with
ticks, resets and hours: no task ends the Redis thread; a tick changes the stored pair only where
there is none or it has expired, after every task the deadline is in the future, and hours keep
the item that was stored; the last response carries exactly the stored pair; and ticks that all
come before the stored deadline change nothing and answer nothing, however many there are. -/
theorem shopSchedule (store : Store) (habsent : store (cstr shopStateKey) = none)
    (xs : List (RedisEnv × RedisTask))
    (h : Runs.Along ShopRun.step Scheduled { store := store } xs) :
    (∃ s, Runs.run ShopRun.step { store := store } xs = some s) ∧
    Runs.Along ShopRun.step (fun s x => ∀ s', s.step x = some s' → KeepsSchedule x s s')
      { store := store } xs ∧
    Runs.Always ShopRun.step Announced { store := store } xs ∧
    ∀ pre ticks s s', xs = pre ++ ticks →
      Runs.run ShopRun.step { store := store } pre = some s →
      Runs.run ShopRun.step s ticks = some s' →
      (∀ x ∈ ticks, commandValue x.2 = -1 ∧ Ahead (now x) s.offer) → s' = s := by
  have hoffer : storedOffer store = none := storedOffer_eq (d := none) habsent
  have hstart : Sound { store := store } := by
    refine ⟨?_, fun p hp => ?_, fun task htask => by cases htask⟩
    · rw [offer, hoffer]
      exact habsent
    · rw [offer, hoffer] at hp
      cases hp
  have hstep : ∀ (s : ShopRun) x s', s.Sound → s.Scheduled x → s.step x = some s' → s'.Sound := by
    intro s x s' hs hx hx'
    obtain ⟨s'', hx'', hs'', -⟩ := hs.step hx
    exact Option.some.inj (hx'.symm.trans hx'') ▸ hs''
  have hsound := Runs.always_of_along hstep hstart h
  refine ⟨?_, ?_, hsound.mono fun s hs => hs.announced, ?_⟩
  · refine Runs.exists_run_of_along (P := Sound) (fun s x hs hx => ?_) hstart h
    obtain ⟨s', hx', hs', -⟩ := hs.step hx
    exact ⟨s', hx', hs'⟩
  · exact Runs.along_of_along (P := Sound) (C := Scheduled)
      (fun s x hs hx s' hx' => hs.keepsSchedule hx hx') hstep hstart h
  · rintro pre ticks s s' rfl hpre hrun hticks
    have hs := (Runs.always_of_along hstep hstart h.of_append).of_run hpre
    exact hs.run_ticks (h.of_append_run hpre) hticks hrun

/-- A task of the shop at a time: the value is that of a tick, a reset or some hours. -/
def shopTaskAt (now : UInt64) (value : Int32) : RedisEnv × RedisTask :=
  ({ now := now, dis1 := Fin.last 4, dis2 := Fin.last 3 },
    RedisTask.make 0 .requestShopUpdate 4 (int32Bytes value) fun _ => 0)

/-- A first tick, two hours more, a tick before the deadline, and a tick at the deadline. -/
def shopDay : List (RedisEnv × RedisTask) :=
  [shopTaskAt 1000 (-1), shopTaskAt 1000 2, shopTaskAt 8200 (-1), shopTaskAt 8201 (-1)]

/-- The schedule of that day. -/
theorem shopSchedule_shopDay :
    Runs.Always ShopRun.step Announced { store := fun _ => none } shopDay ∧
      (Runs.run ShopRun.step { store := fun _ => none } shopDay).map offer =
        some (some (101, 8202)) :=
  ⟨(shopSchedule (fun _ => none) rfl shopDay (by decide +kernel)).2.2.1, by decide +kernel⟩

end ShopRun

end CKGameServer
