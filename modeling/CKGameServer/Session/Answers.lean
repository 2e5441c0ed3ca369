import CKGameServer.Inventory.Numeric

/-!
The answers of the Redis thread (`TaskProcessThread`), request by request.

* `RedisTask.AnsweredBy`: a login, a load and a purchase get one response, for their own slot; a
  trade gets two, for its two users, that say the same; other tasks get none of these.
* `RedisThread`: the thread with its queue, and the responses it has pushed for each task.
* `RedisTask.CanAnswer`, `answers_iff`: the tasks that are answered, on a database whose numbers can
  be read.
* `RedisThread.allAnswered_iff`: over every run all tasks are answered exactly if each can be.
* `RedisThread.unanswered_trade`: a trade with a user who has no inventory is not.
-/

namespace CKGameServer

open Memory

/-! ### What a request is owed -/

/-- One response, for the slot of the request. -/
def RedisTask.OneResponse (task : RedisTask) (id : RedisTaskID) (responses : List RedisTask) :
    Prop :=
  ∃ response, responses = [response] ∧ response.taskID = id ∧
    response.userIndex = task.userIndex

/-- Two responses to a trade, for its two users, with the same `IsSuccess`. -/
def RedisTask.TwoResponses (task : RedisTask) (responses : List RedisTask) : Prop :=
  ∃ responseA responseB, responses = [responseA, responseB] ∧
    responseA.taskID = .responseTradeExchange ∧ responseB.taskID = .responseTradeExchange ∧
    responseA.userIndex = (RedisTradeReq.ofView task.pData).userA.toUInt32.toNat ∧
    responseB.userIndex = (RedisTradeReq.ofView task.pData).userB.toUInt32.toNat ∧
    tradeSuccessAt responseA.pData = tradeSuccessAt responseB.pData

/-- The task gets the responses it is owed. -/
def RedisTask.AnsweredBy (task : RedisTask) (responses : List RedisTask) : Prop :=
  match task.taskID with
  | .requestLogin => task.OneResponse .responseLogin responses
  | .requestLoadInventory => task.OneResponse .responseLoadInventory responses
  | .requestShopBuy => task.OneResponse .responseShopBuy responses
  | .requestTradeExchange => task.TwoResponses responses
  | _ => ∀ response ∈ responses, response.taskID ≠ .responseLogin ∧
      response.taskID ≠ .responseLoadInventory ∧ response.taskID ≠ .responseShopBuy ∧
      response.taskID ≠ .responseTradeExchange

/-- A load finds an inventory, or the number in front of `nums` is a slot; a trade finds both
inventories, and none of the offered slots is past the end. -/
def RedisTask.CanAnswer (env : RedisEnv) (db : Store) (task : RedisTask) : Prop :=
  match task.taskID with
  | .requestLoadInventory => db.hgetall (env.replies 0) (invenKey (loadedUser task)) = none →
      0 ≤ (env.stackInts 0).toInt ∧ (env.stackInts 0).toInt < inventorySize
  | .requestTradeExchange =>
      db.hgetall (env.replies 0) (invenKey (RedisTradeReq.ofView task.pData).userAID) ≠ none ∧
      db.hgetall (env.replies 1) (invenKey (RedisTradeReq.ofView task.pData).userBID) ≠ none ∧
      SlotsInRange (RedisTradeReq.ofView task.pData).itemsASlot ∧
      SlotsInRange (RedisTradeReq.ofView task.pData).itemsBSlot
  | _ => True

/-! ### One task -/

section Task

variable {env : RedisEnv} {db : Store} {task : RedisTask}

/-- The task comes to its end, and is answered. -/
def RedisTask.Answers (env : RedisEnv) (db : Store) (task : RedisTask) : Prop :=
  ∃ out, taskProcess env db task = .ok out ∧ task.AnsweredBy out.responses

lemma answers_loadInventory_iff (h : NumericStore db) (hid : task.taskID = .requestLoadInventory) :
    task.Answers env db ↔ task.CanAnswer env db := by
  have hrun : taskProcess env db task = requestLoadInventory env db task := by
    rw [taskProcess, hid]
  rw [RedisTask.Answers, hrun, RedisTask.CanAnswer, hid, requestLoadInventory, ← loadedUser]
  simp only [RedisTask.AnsweredBy, hid]
  cases hget : db.hgetall (env.replies 0) (invenKey (loadedUser task)) with
  | some inven =>
      obtain ⟨slots, hslots⟩ := h.loadSlots (View.zero_notMem_cString 4) hget fun _ => 0
      simp only [hslots]
      exact iff_of_true ⟨_, rfl, _, rfl, rfl, rfl⟩ fun hnone => by cases hnone
  | none =>
      simp only [forall_const]
      rw [← starterGrant_isOk_iff env db (invenKey (loadedUser task))]
      constructor
      · rintro ⟨out, hout, -⟩
        obtain ⟨r, hr, -⟩ := exists_of_map_eq_ok hout
        exact ⟨r, hr⟩
      · rintro ⟨r, hr⟩
        rw [hr]
        exact ⟨_, rfl, _, rfl, rfl, rfl⟩

/-- A purchase is always answered. -/
lemma answers_shopBuy (h : NumericStore db) (hid : task.taskID = .requestShopBuy) :
    task.Answers env db := by
  have hrun : taskProcess env db task = requestShopBuy env db task := by
    rw [taskProcess, hid]
  obtain ⟨inven, hread⟩ :=
    h.readInventory (View.zero_notMem_cString 0 : (0 : UInt8) ∉ boughtBy task) (env.replies 0)
  rw [RedisTask.Answers, hrun, requestShopBuy_of_read hread]
  simp only [RedisTask.AnsweredBy, hid]
  cases firstEmptySlot inven with
  | none => exact ⟨_, rfl, _, rfl, rfl, rfl⟩
  | some k => exact ⟨_, rfl, _, rfl, rfl, rfl⟩

lemma twoResponses_tradeResponses (env : RedisEnv) (task : RedisTask) (isSuccess : Bool) :
    task.TwoResponses (tradeResponses env (RedisTradeReq.ofView task.pData) isSuccess) :=
  ⟨_, _, rfl, rfl, rfl, rfl, rfl, rfl⟩

lemma answers_tradeExchange_iff (h : NumericStore db)
    (hid : task.taskID = .requestTradeExchange) :
    task.Answers env db ↔ task.CanAnswer env db := by
  have hrun : taskProcess env db task =
      requestTradeExchange env db (RedisTradeReq.ofView task.pData) := by
    rw [taskProcess, hid]
  have htwo := twoResponses_tradeResponses env task
  rw [RedisTask.Answers, hrun, RedisTask.CanAnswer, hid]
  simp only [RedisTask.AnsweredBy, hid]
  generalize RedisTradeReq.ofView task.pData = req at htwo
  by_cases hloads : ∃ a b, Loads env db req a b
  · obtain ⟨a, b, hab⟩ := hloads
    obtain ⟨invenA, invenB, hgetA, hgetB, -, -⟩ := id hab
    have hfound : db.hgetall (env.replies 0) (invenKey req.userAID) ≠ none ∧
        db.hgetall (env.replies 1) (invenKey req.userBID) ≠ none := by
      rw [hgetA, hgetB]
      exact ⟨Option.some_ne_none _, Option.some_ne_none _⟩
    by_cases hslots : SlotsInRange req.itemsASlot ∧ SlotsInRange req.itemsBSlot
    · refine iff_of_true ⟨_, requestTradeExchange_of_loads hab hslots.1 hslots.2, ?_⟩
        ⟨hfound.1, hfound.2, hslots⟩
      split
      · exact htwo true
      · exact htwo false
    · rw [requestTradeExchange_outOfRange hab hslots]
      exact iff_of_false (by simp) fun hcan => hslots hcan.2.2
  · have hnone : ¬(db.hgetall (env.replies 0) (invenKey req.userAID) ≠ none ∧
        db.hgetall (env.replies 1) (invenKey req.userBID) ≠ none) := by
      rintro ⟨hA, hB⟩
      obtain ⟨invenA, hgetA⟩ := Option.ne_none_iff_exists'.mp hA
      obtain ⟨invenB, hgetB⟩ := Option.ne_none_iff_exists'.mp hB
      exact hloads (h.loads hgetA hgetB)
    refine iff_of_false ?_ fun hcan => hnone ⟨hcan.1, hcan.2.1⟩
    rw [not_exists] at hloads
    rintro ⟨out, hout, responseA, responseB, hresponses, -⟩
    rcases requestTradeExchange_of_not_loads fun a b hab => hloads a ⟨b, hab⟩ with
      ⟨e, he, -⟩ | hok
    · cases he.symm.trans hout
    · obtain rfl := Except.ok.inj (hok.symm.trans hout)
      cases hresponses

/-- An update of the shop comes to its end. -/
lemma answers_shopUpdate (h : NumericStore db) (hid : task.taskID = .requestShopUpdate) :
    task.Answers env db := by
  have htime : ∃ t, readNextTime (env.replies 0) db = .ok t := by
    cases env.replies 0 with
    | false => exact ⟨0, rfl⟩
    | true => exact h.nextTime
  have hitem : ∃ n, readCurrentItem (env.replies 1) db = .ok n := by
    cases env.replies 1 with
    | false => exact ⟨101, rfl⟩
    | true => exact h.currentItem
  obtain ⟨t, ht⟩ := htime
  obtain ⟨n, hn⟩ := hitem
  have hrun : taskProcess env db task = .ok (updateShop env db task t n) := by
    rw [taskProcess, hid]
    simp only
    rw [requestShopUpdate_eq, ht, hn]
    rfl
  refine ⟨_, hrun, ?_⟩
  rw [taskProcess, hid] at hrun
  have hshop := (tasks_requestShopUpdate hrun).2
  simp only [RedisTask.AnsweredBy, hid]
  intro response hresponse
  rw [hshop response hresponse]
  decide

/-- **Which tasks are answered**, on a database whose numbers can be read. -/
theorem answers_iff (h : NumericStore db) :
    task.Answers env db ↔ task.CanAnswer env db := by
  cases hid : task.taskID with
  | requestLoadInventory => exact answers_loadInventory_iff h hid
  | requestTradeExchange => exact answers_tradeExchange_iff h hid
  | _ =>
      refine iff_of_true ?_ (by rw [RedisTask.CanAnswer, hid]; trivial)
      first
        | exact answers_shopBuy h hid
        | exact answers_shopUpdate h hid
        | refine ⟨_, by rw [taskProcess, hid], ?_⟩
          simp only [RedisTask.AnsweredBy, hid]
          first
            | exact ⟨_, rfl, rfl, rfl⟩
            | simp [requestNotice]

end Task

/-! ### The thread -/

/-- The Redis thread: the database, its queue, the tasks it has taken with the responses it has
pushed for each, and whether it is still running. -/
structure RedisThread where
  store : Store
  mRequestTask : List RedisTask := []
  handled : List (RedisTask × List RedisTask) := []
  running : Bool := true

/-- Another thread pushes a task, or this one takes the next. -/
inductive RedisEvent where
  | pushTask (task : RedisTask)
  | takeRequestTask (env : RedisEnv)

namespace RedisThread

/-- The thread after a task. A fault ends it. -/
def handle (t : RedisThread) (env : RedisEnv) (task : RedisTask) (rest : List RedisTask) :
    RedisThread :=
  match taskProcess env t.store task with
  | .ok out =>
    { t with
      store := out.store
      mRequestTask := rest ++ out.requests
      handled := t.handled ++ [(task, out.responses)] }
  | .error _ =>
    { store := storeAfter env t.store task
      mRequestTask := rest
      handled := t.handled ++ [(task, [])]
      running := false }

/-- One step. -/
def step (t : RedisThread) : RedisEvent → Option RedisThread
  | .pushTask task => some { t with mRequestTask := t.mRequestTask ++ [task] }
  | .takeRequestTask env =>
    match t.running, t.mRequestTask with
    | true, task :: rest => some (t.handle env task rest)
    | _, _ => some t

/-- The thread is running, and every task it has taken has got its responses. -/
def AllAnswered (t : RedisThread) : Prop :=
  t.running = true ∧ ∀ g ∈ t.handled, g.1.AnsweredBy g.2

/-- The next task can be answered. -/
def CanAnswer (t : RedisThread) : RedisEvent → Prop
  | .pushTask _ => True
  | .takeRequestTask env =>
    ∀ task rest, t.mRequestTask = task :: rest → task.CanAnswer env t.store

variable {t : RedisThread} {env : RedisEnv} {task : RedisTask} {rest : List RedisTask}

/-- The database after a task. -/
lemma handle_store : (t.handle env task rest).store = storeAfter env t.store task := by
  rw [handle]
  cases hout : taskProcess env t.store task with
  | ok out => exact (storeAfter_of_ok hout).symm
  | error e => rfl

/-- All tasks are answered after a task exactly if that task is. -/
lemma allAnswered_handle_iff (ht : t.AllAnswered) :
    (t.handle env task rest).AllAnswered ↔ task.Answers env t.store := by
  rw [handle, RedisTask.Answers]
  cases hout : taskProcess env t.store task with
  | error e => exact iff_of_false (fun h => Bool.false_ne_true h.1) (by simp)
  | ok out =>
      simp only [Except.ok.injEq, exists_eq_left']
      constructor
      · rintro ⟨-, hall⟩
        exact hall (task, out.responses) (List.mem_append_right _ (List.mem_singleton_self _))
      · intro hanswered
        refine ⟨ht.1, fun g hg => ?_⟩
        rcases List.mem_append.mp hg with hold | hnew
        · exact ht.2 g hold
        · rwa [List.mem_singleton.mp hnew]

/-- The database stays numeric. -/
lemma numericStore_step {t' : RedisThread} {e : RedisEvent} (h : NumericStore t.store)
    (hstep : t.step e = some t') : NumericStore t'.store := by
  cases e with
  | pushTask task =>
      obtain rfl := Option.some.inj hstep
      exact h
  | takeRequestTask env =>
      rw [step] at hstep
      split at hstep
      · obtain rfl := Option.some.inj hstep
        rw [handle_store]
        exact h.after_task
      · obtain rfl := Option.some.inj hstep
        exact h

/-- **One step**: it leaves all tasks answered exactly if the task it takes can be. -/
lemma allAnswered_step_iff (h : NumericStore t.store) (ht : t.AllAnswered) (e : RedisEvent) :
    (∀ t', t.step e = some t' → t'.AllAnswered) ↔ t.CanAnswer e := by
  cases e with
  | pushTask task =>
      refine iff_of_true (fun t' hstep => ?_) trivial
      obtain rfl := Option.some.inj hstep
      exact ht
  | takeRequestTask env =>
      rw [step, CanAnswer]
      cases hqueue : t.mRequestTask with
      | nil =>
          refine iff_of_true (fun t' hstep => ?_) fun task rest hcons => by cases hcons
          rw [ht.1] at hstep
          obtain rfl := Option.some.inj hstep
          exact ht
      | cons task rest =>
          rw [ht.1]
          simp only [Option.some.injEq, forall_eq']
          rw [allAnswered_handle_iff ht, answers_iff h]
          refine ⟨fun hcan task' rest' hcons => ?_, fun hall => hall task rest rfl⟩
          obtain ⟨rfl, rfl⟩ := List.cons.inj hcons
          exact hcan

/-- **No request goes unanswered** exactly if every load of a run finds an inventory or the number
in front of `nums` is a slot, and every trade finds both inventories and offers no slot past the
end. -/
theorem allAnswered_iff {store : Store} (h : NumericStore store) (es : List RedisEvent) :
    Runs.Always step AllAnswered { store } es ↔ Runs.Along step CanAnswer { store } es :=
  Runs.always_iff_along (I := fun t => NumericStore t.store)
    (fun t e t' hI hstep => numericStore_step hI hstep)
    (fun t e hI ht => allAnswered_step_iff hI ht e) es h ⟨rfl, fun g hg => by cases hg⟩

/-- An empty database. -/
lemma numericStore_empty : NumericStore fun _ => none :=
  ⟨fun _ _ => Hash.isNumeric_empty, ⟨0, rfl⟩, ⟨101, rfl⟩⟩

/-- A database with two inventories and no shop. -/
lemma numericStore_inventoriesOf (userAID userBID : Bytes) (a b : Inventory) :
    NumericStore (inventoriesOf userAID userBID a b) where
  inventory u hu := by
    rw [storedHash, Store.hashAt, cstr_invenKey hu, inventoriesOf]
    split_ifs
    · exact Hash.isNumeric_inventoryHash a
    · exact Hash.isNumeric_inventoryHash b
    · exact Hash.isNumeric_empty
  nextTime := ⟨0, rfl⟩
  currentItem := ⟨101, rfl⟩

/-- `a`, who has item 101 in slot 1, loads its inventory. -/
theorem allAnswered_load :
    Runs.Always step AllAnswered
      { store := inventoriesOf [97] [98] (Function.update (fun _ => 0) 1 101) fun _ => 0 }
      [.pushTask
        { userIndex := 2, taskID := .requestLoadInventory, pData := View.ofBytes [0, 0, 0, 0, 97] },
        .takeRequestTask {}] := by
  refine (allAnswered_iff (numericStore_inventoriesOf _ _ _ _) _).mpr
    ⟨trivial, fun t ht => ⟨?_, fun _ _ => trivial⟩⟩
  obtain rfl := Option.some.inj ht
  intro task rest hcons
  obtain ⟨rfl, rfl⟩ := List.cons.inj hcons
  rw [RedisTask.CanAnswer]
  intro hnone
  exact absurd hnone (by decide +kernel)

/-- **A trade without an answer**: neither user has an inventory. -/
theorem unanswered_trade :
    ¬∀ (store : Store) (es : List RedisEvent), NumericStore store →
      Runs.Always step AllAnswered { store } es := by
  intro h
  have hall := h (fun _ => none)
    [.pushTask { taskID := .requestTradeExchange }, .takeRequestTask {}] numericStore_empty
  have hrun : Runs.run step { store := fun _ => none }
      [.pushTask { taskID := .requestTradeExchange }, .takeRequestTask {}] =
      some { store := fun _ => none, handled := [({ taskID := .requestTradeExchange }, [])] } :=
    rfl
  obtain ⟨_, _, hresponses, -⟩ := (hall.of_run hrun).2 _ (List.mem_singleton_self _)
  cases hresponses

end RedisThread

end CKGameServer
