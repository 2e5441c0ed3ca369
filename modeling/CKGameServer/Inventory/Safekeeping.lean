import CKGameServer.Packets.RequestTasks
import CKGameServer.Trade.Failures

/-!
What is stored over runs of the whole server, whatever its clients send.

* `storeAfter_induction`: a task writes by `HSET` commands, to the inventories and to the shop.
* `Untouched`: the strings of the database, and all other keys, are as they were.
* `World.Untraded`: no trade waits for the Redis thread; `World.untraded_step`: nothing that happens
  leads to one.
* `World.logins_decided`: who can log in with which password is decided at the start.
* `World.items_kept`: from any state of a run on, every occupied slot keeps its item.
-/

namespace CKGameServer

open Memory

/-! ### What a task writes -/

section Task

variable {env : RedisEnv} {db db' : Store} {task : RedisTask}

/-- The Redis thread writes to this key. -/
def IsWritten (key : Bytes) : Prop := key = shopStateKey ∨ ∃ userID, key = invenKey userID

/-- A property that every `HSET` of the Redis thread keeps is kept by every task. -/
lemma storeAfter_induction {P : Store → Prop}
    (hset : ∀ db reply key field value, IsWritten key → P db → P (db.hset reply key field value))
    (hdb : P db) : P (storeAfter env db task) := by
  have hcommands : ∀ (db : Store) replies cmds, (∀ cmd ∈ cmds, ∃ u, cmd.1 = invenKey u) → P db →
      P (db.hsetAll replies cmds) := fun db replies cmds hcmds hdb =>
    hsetAll_induction (fun db reply cmd hcmd => hset db reply _ _ _ (.inr (hcmds cmd hcmd)))
      replies hdb
  by_cases hload : task.taskID = .requestLoadInventory
  · rw [storeAfter_loadInventory env db hload]
    split
    · refine hcommands db _ _ (fun cmd hcmd => ?_) hdb
      obtain ⟨n, x, rfl⟩ := mem_grantCommands hcmd
      exact ⟨_, rfl⟩
    · exact hdb
  by_cases hbuy : task.taskID = .requestShopBuy
  · rcases storeAfter_shopBuy_cases env db hbuy with heq | ⟨k, heq⟩ <;> rw [heq]
    · exact hdb
    · exact hset _ _ _ _ _ (.inr ⟨_, rfl⟩) hdb
  by_cases hupdate : task.taskID = .requestShopUpdate
  · rcases storeAfter_shopUpdate env db hupdate with heq | ⟨itemID, time, heq⟩ <;> rw [heq]
    · exact hdb
    · exact hset _ _ _ _ _ (.inl rfl) (hset _ _ _ _ _ (.inl rfl) hdb)
  by_cases htrade : task.taskID = .requestTradeExchange
  · rw [storeAfter, taskProcess, htrade]
    simp only [reduceCtorEq, false_and, if_false]
    split
    · rename_i out hout
      rcases store_requestTradeExchange hout with heq | ⟨arrayA, arrayB, heq⟩ <;> rw [heq]
      · exact hdb
      · rw [Store.multiExec]
        split_ifs
        · exact hcommands _ _ _ (fun cmd => mem_tradeCommands) hdb
        · exact hdb
        · exact hcommands _ _ _ (fun cmd => mem_tradeCommands) hdb
    · exact hdb
  obtain ⟨out, hout, hstore, -⟩ := exists_ok_of_other hload hbuy hupdate htrade
  rw [storeAfter_of_ok hout, hstore]
  exact hdb

/-- The strings are as they were, and so are the keys that the Redis thread does not write to. -/
structure Untouched (db db' : Store) : Prop where
  strings : ∀ key value, db' key = some (.str value) ↔ db key = some (.str value)
  others : ∀ key, (∀ key', IsWritten key' → key ≠ cstr key') → db' key = db key

lemma Untouched.refl (db : Store) : Untouched db db := ⟨fun _ _ => Iff.rfl, fun _ _ => rfl⟩

/-- `HSET` does nothing, or writes a hash to a key that is no string. -/
lemma hset_cases (db : Store) (reply : Bool) (key field value : Bytes) :
    db.hset reply key field value = db ∨
      ∃ fields, (∀ v, db (cstr key) ≠ some (.str v)) ∧
        db.hset reply key field value = Function.update db (cstr key) (some (.hash fields)) := by
  rw [Store.hset]
  cases reply with
  | false => exact .inl rfl
  | true =>
      rw [if_pos rfl]
      rcases db (cstr key) with - | v | h
      · exact .inr ⟨_, fun v hv => (by cases hv), rfl⟩
      · exact .inl rfl
      · exact .inr ⟨_, fun v hv => (by cases hv), rfl⟩

/-- `HSET` leaves a string as it is. -/
lemma Untouched.hset (h : Untouched db db') {key : Bytes} (hkey : IsWritten key) (reply : Bool)
    (field value : Bytes) : Untouched db (db'.hset reply key field value) := by
  rcases hset_cases db' reply key field value with heq | ⟨fields, hnone, heq⟩ <;> rw [heq]
  · exact h
  refine ⟨fun key' v => ?_, fun key' hkey' => ?_⟩
  · rw [← h.strings key' v]
    by_cases hne : key' = cstr key
    · subst hne
      rw [Function.update_self]
      exact iff_of_false (fun heq => by cases heq) (hnone v)
    · rw [Function.update_of_ne hne]
  · rw [Function.update_of_ne (hkey' key hkey), h.others key' hkey']

/-- **A task leaves the strings as they are**, whichever of its commands fail. -/
lemma Untouched.storeAfter (h : Untouched db db') : Untouched db (storeAfter env db' task) :=
  storeAfter_induction (fun _ reply _ field value hkey h => h.hset hkey reply field value) h

/-- `GET` reads strings only. -/
lemma Untouched.get (h : Untouched db db') (reply : Bool) (key : Bytes) :
    db'.get reply key = db.get reply key := by
  rw [Store.get, Store.get]
  have hkey := h.strings (cstr key)
  have hsame : ∀ v, db (cstr key) = some (.str v) → db' (cstr key) = some (.str v) :=
    fun v => (hkey v).mpr
  have hsame' : ∀ v, db' (cstr key) = some (.str v) → db (cstr key) = some (.str v) :=
    fun v => (hkey v).mp
  generalize db (cstr key) = x at hsame hsame'
  generalize db' (cstr key) = y at hsame hsame'
  rcases x with - | v | h
  · rcases y with - | v | h'
    · rfl
    · cases hsame' v rfl
    · rfl
  · rw [hsame v rfl]
  · rcases y with - | v | h'
    · rfl
    · cases hsame' v rfl
    · rfl

/-- So a login request is answered in the same way. -/
lemma Untouched.requestLogin (h : Untouched db db') (env : RedisEnv) (task : RedisTask) :
    (requestLogin env db' task).responses = (requestLogin env db task).responses := by
  rw [CKGameServer.requestLogin, CKGameServer.requestLogin, loginBody, loginBody, h.get]

end Task

/-! ### The whole server -/

namespace World

variable {maxClient : ℕ} {memory : ℕ → View} {store : Store} {w w' : World} {e : Event}
  {es es' : List Event}

/-- The database after a step is the one after a task, or it does not change. -/
lemma exists_storeAfter_of_step (h : w.step e = some w') :
    w'.store = w.store ∨ ∃ env, e = .redisTask env ∧
      w'.store = storeAfter env w.store w.server.takeRequestTask.1 := by
  by_cases hredis : ∃ env, e = .redisTask env
  · obtain ⟨env, rfl⟩ := hredis
    obtain ⟨out, hout, rfl⟩ := exists_taskProcess h
    exact .inr ⟨env, rfl, (storeAfter_of_ok hout).symm⟩
  · exact .inl (store_of_step h fun env heq => hredis ⟨env, heq⟩)

/-- **Who can log in is decided at the start.** In every state of every run, whatever clients send
and whichever commands fail: every string of the database is as it was at the start, and every key
other than the inventories and the shop; so every login request gets the answer that it would have
got then. -/
theorem logins_decided (maxClient : ℕ) (memory : ℕ → View) (store : Store) (es : List Event) :
    Runs.Always step (fun w => Untouched store w.store ∧ ∀ env task,
      (requestLogin env w.store task).responses = (requestLogin env store task).responses)
      (init maxClient memory store) es := by
  have huntouched : Runs.Always step (fun w => Untouched store w.store)
      (init maxClient memory store) es :=
    Runs.always_of_step (fun w e w' hw h => by
      rcases exists_storeAfter_of_step h with heq | ⟨env, -, heq⟩ <;> rw [heq]
      · exact hw
      · exact hw.storeAfter) es (.refl store)
  exact huntouched.mono fun w hw => ⟨hw, hw.requestLogin⟩

/-! ### Items -/

/-- No trade waits for the Redis thread. -/
def Untraded (w : World) : Prop := ∀ task ∈ w.server.mRequestTask, IsUntraded task

/-- The requests of the producers are no trades. -/
lemma isUntraded_task (r : PushedRequest) (env : Env) (redis : RedisEnv) :
    IsUntraded (r.task env redis) := by
  cases r with
  | login i p => exact .inl rfl
  | notice i p => exact .inr (.inl rfl)
  | loadInventory i p => exact .inr (.inr (.inl rfl))
  | reloadInventory task => exact .inr (.inr (.inl rfl))
  | shopBuy user p => exact .inr (.inr (.inr (.inr rfl)))

lemma untraded_step (hw : w.Untraded) (h : w.step e = some w') : w'.Untraded := fun task htask => by
  rcases exists_request_of_step h task htask with hold | hshop | ⟨r, env, redis, rfl⟩
  · exact hw task hold
  · exact .inr (.inr (.inr (.inl hshop)))
  · exact isUntraded_task r env redis

/-- The task that the Redis thread takes is no trade. -/
lemma Untraded.taken (hw : w.Untraded) :
    w.server.takeRequestTask.1 = {} ∨ IsUntraded w.server.takeRequestTask.1 := by
  rw [Server.takeRequestTask]
  cases htasks : w.server.mRequestTask with
  | nil => exact .inl rfl
  | cons task rest => exact .inr (hw task (htasks ▸ List.mem_cons_self))

/-- No trade waits, and the inventories are canonical. -/
structure Safe (w : World) : Prop where
  untraded : w.Untraded
  canonical : CanonicalInventories w.store

/-- What the Redis thread leaves, also where it ends. -/
lemma Safe.canonical_storeAfter (hw : w.Safe) (env : RedisEnv) :
    CanonicalInventories (storeAfter env w.store w.server.takeRequestTask.1) := by
  rcases hw.untraded.taken with hnone | huntraded
  · rw [hnone]
    exact hw.canonical
  · exact isCanonical_task hw.canonical huntraded

lemma Safe.keeps_storeAfter (hw : w.Safe) {env : RedisEnv} (hreply : env.replies 0 = true) :
    ∃ named, Keeps named w.store (storeAfter env w.store w.server.takeRequestTask.1) := by
  rcases hw.untraded.taken with hnone | huntraded
  · rw [hnone]
    exact ⟨none, .refl none _⟩
  · exact ⟨_, keeps_task huntraded hreply (hw.canonical.storesItems (View.zero_notMem_cString 0))⟩

lemma Safe.step (hw : w.Safe) (h : w.step e = some w') : w'.Safe := by
  refine ⟨untraded_step hw.untraded h, ?_⟩
  rcases exists_storeAfter_of_step h with heq | ⟨env, -, heq⟩ <;> rw [heq]
  · exact hw.canonical
  · exact hw.canonical_storeAfter env

lemma safe_init (hstore : CanonicalInventories store) : (init maxClient memory store).Safe :=
  ⟨fun task htask => (by cases htask), hstore⟩

/-- Every occupied slot of `db` holds in `db'` what it holds in `db`. -/
def KeepsItems (db db' : Store) : Prop :=
  ∀ u, (0 : UInt8) ∉ u → ∀ i, inventoryAt db u i ≠ 0 → inventoryAt db' u i = inventoryAt db u i

lemma KeepsItems.keeps {db db' db'' : Store} (h : KeepsItems db db') {named : Option Bytes}
    (hkeeps : Keeps named db' db'') : KeepsItems db db'' := fun u hu i hi => by
  have hsame := h u hu i hi
  rw [hkeeps.occupied u hu i (by rwa [hsame]), hsame]

/-- The event is a task whose first command is answered, or no task. -/
def FirstAnswered : Event → Prop
  | .redisTask env => env.replies 0 = true
  | _ => True

/-- **No item is lost, whatever clients send.** Take a run of the server from canonical inventories
in which commands may fail, and go on with the first command of every task answered: in every state
that follows no trade waits for the Redis thread, every occupied slot of every user holds what it
held, and so it does after the task that is taken next, also if this ends the thread. -/
theorem items_kept (hstore : CanonicalInventories store)
    (hrun : Runs.run step (init maxClient memory store) es = some w)
    (hanswered : ∀ e ∈ es', FirstAnswered e) :
    Runs.Always step (fun w' => w'.Untraded ∧ KeepsItems w.store w'.store ∧
      ∀ env, env.replies 0 = true →
        KeepsItems w.store (storeAfter env w'.store w'.server.takeRequestTask.1)) w es' := by
  have hsafe : w.Safe := (Runs.always_of_step (fun _ _ _ => Safe.step) es
    (safe_init hstore)).of_run hrun
  have hboth : Runs.Always step (fun w' => w'.Safe ∧ KeepsItems w.store w'.store) w es' :=
    Runs.always_of_along (C := fun _ e => FirstAnswered e) (fun w₁ e w₂ hw₁ he h => by
      refine ⟨hw₁.1.step h, ?_⟩
      rcases exists_storeAfter_of_step h with heq | ⟨env, rfl, heq⟩ <;> rw [heq]
      · exact hw₁.2
      · obtain ⟨named, hkeeps⟩ := hw₁.1.keeps_storeAfter he
        exact hw₁.2.keeps hkeeps) ⟨hsafe, fun _ _ _ _ => rfl⟩
      (.of_forall_mem fun e he _ => hanswered e he)
  exact hboth.mono fun w' hw' => ⟨hw'.1.untraded, hw'.2, fun env hreply => by
    obtain ⟨named, hkeeps⟩ := hw'.1.keeps_storeAfter hreply
    exact hw'.2.keeps hkeeps⟩

/-- The client with index 0 asks to buy, and its purchase names `a` and item 103. -/
def purchaseOfA : List Event :=
  [.receive 0 ⟨[17, 0, 47, 1, 0, 0, 0, 0, 0, 0, 0, 0, 0, 103, 0, 0, 0], by decide⟩,
    .clientPacket { heap := fun _ => View.ofBytes (97 :: List.replicate maxUserIdLen 0 ++ [103]) },
    .redisTask default]

/-- `a` has item 101 in its first slot, `b` has item 102 in all of them. -/
def ownedByTwo : Store :=
  inventoriesOf [97] [98] (fun i => if i.val = 0 then 101 else 0) fun _ => 102

/-- What they own, they own after the purchase. -/
theorem items_kept_purchase :
    ∃ w', Runs.run step (init 3 (fun _ _ => 0) ownedByTwo) purchaseOfA = some w' ∧
      KeepsItems ownedByTwo w'.store ∧ inventoryAt w'.store [97] 1 = 103 := by
  have hrun : (Runs.run step (init 3 (fun _ _ => 0) ownedByTwo) purchaseOfA).map
      (fun w' => inventoryAt w'.store [97] 1) = some 103 := by decide +kernel
  obtain ⟨w', hw', hbought⟩ := Option.map_eq_some_iff.mp hrun
  have hstore : CanonicalInventories ownedByTwo := canonicalInventories_inventoriesOf _ _ _ _
  have hanswered : ∀ e ∈ purchaseOfA, FirstAnswered e := by
    simp only [purchaseOfA, List.mem_cons, List.not_mem_nil, or_false]
    rintro e (rfl | rfl | rfl)
    · trivial
    · trivial
    · rfl
  have hkept := items_kept hstore (Runs.run_nil (init 3 (fun _ _ => 0) ownedByTwo)) hanswered
  exact ⟨w', hw', (hkept.of_run hw').2.1, hbought⟩

end World

end CKGameServer
