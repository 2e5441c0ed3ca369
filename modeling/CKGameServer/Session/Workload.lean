import CKGameServer.Session.Pipeline

/-!
How much work what comes in leads to (`ProcessPacket`, `TaskProcessThread`).

* `RedisTaskID.work`: how many passes of a thread a task leads to; `World.work`: those that what
  waits in the queues leads to.
* `Handler.exists_pushed`: a handler pushes one task at most; `Server.work_dispatch`.
* `work_taskProcess`: what a task leads to is less than the task.
* `World.taken_le`: what the threads take from the queues, in every run, is bounded by what comes
  in; `World.length_add_le`: without anything new the threads come to rest.
-/

namespace CKGameServer

open Memory PacketManager

/-- How many passes of a thread a task in a queue leads to at most, the one that takes it included:
a login is answered by a response, which loads the inventory, which is a response again. -/
def RedisTaskID.work : RedisTaskID → ℕ
  | requestLogin | requestShopBuy => 4
  | responseLogin | requestTradeExchange => 3
  | requestLoadInventory | requestShopUpdate => 2
  | _ => 1

/-- The same for a packet, whose handler pushes one task. -/
def packetWork : ℕ := 5

/-- The passes that tasks lead to. -/
def tasksWork (tasks : List RedisTask) : ℕ := (tasks.map fun task => task.taskID.work).sum

lemma tasksWork_append (tasks tasks' : List RedisTask) :
    tasksWork (tasks ++ tasks') = tasksWork tasks + tasksWork tasks' := by
  simp [tasksWork]

lemma tasksWork_cons (task : RedisTask) (tasks : List RedisTask) :
    tasksWork (task :: tasks) = task.taskID.work + tasksWork tasks := by
  simp [tasksWork]

@[simp] lemma tasksWork_nil : tasksWork [] = 0 := rfl

lemma tasksWork_singleton (task : RedisTask) : tasksWork [task] = task.taskID.work := by
  rw [tasksWork_cons, tasksWork_nil, add_zero]

lemma RedisTaskID.work_pos (id : RedisTaskID) : 0 < id.work := by cases id <;> decide

/-- No task is in a queue exactly where its work is nothing. -/
lemma tasksWork_eq_zero_iff {tasks : List RedisTask} : tasksWork tasks = 0 ↔ tasks = [] := by
  cases tasks with
  | nil => simp
  | cons task rest =>
      have hpos := task.taskID.work_pos
      rw [tasksWork_cons]
      simp only [reduceCtorEq, iff_false]
      omega

/-- The passes that what waits in the four queues leads to. -/
def Server.work (σ : Server) : ℕ :=
  packetWork * (σ.mInComingPacketUserIndex.length + σ.mSystemPacketQueue.length) +
    tasksWork σ.mResponseTask + tasksWork σ.mRequestTask

/-! ### The handlers -/

section Handlers

variable {handler : Handler} {env : Env} {i n : ℕ} {p : View} {σ τ : Server}

/-- The four handlers that have tasks of their own push one of them at most. -/
lemma Handler.length_mRequestTask (h : handler.run env i n p σ = .ok τ)
    (hpushes : ∃ id : RedisTaskID, handler ∈ id.pushers) :
    τ.mRequestTask = σ.mRequestTask ∨ ∃ task, τ.mRequestTask = σ.mRequestTask ++ [task] := by
  obtain ⟨id, hid⟩ := hpushes
  have hfour : handler = .processLogin ∨ handler = .processRoomChatMessage ∨
      handler = .processLoginDBResult ∨ handler = .processShopBuyRequest := by
    cases id <;> simp_all [RedisTaskID.pushers]
  rcases hfour with rfl | rfl | rfl | rfl
  · obtain rfl := Except.ok.inj h
    rw [PacketManager.processLogin]
    split
    · exact .inl rfl
    · split
      · exact .inl rfl
      · split
        · exact .inr ⟨_, rfl⟩
        · exact .inl rfl
  · rcases processRoomChatMessage_cases h with ⟨-, rfl⟩ | ⟨r, -, ⟨-, rfl⟩ |
      ⟨-, ⟨-, task, -, rfl⟩ | ⟨-, rfl⟩⟩⟩
    · exact .inl rfl
    · exact .inl rfl
    · exact .inr ⟨task, rfl⟩
    · exact .inl rfl
  · obtain rfl := Except.ok.inj h
    rw [PacketManager.processLoginDBResult]
    split
    · exact .inr ⟨_, rfl⟩
    · exact .inl rfl
  · obtain rfl := Except.ok.inj h
    exact .inr ⟨_, rfl⟩

/-- **A handler pushes one task at most**, and it is one of its own. -/
theorem Handler.exists_pushed (h : handler.run env i n p σ = .ok τ) :
    τ.mRequestTask = σ.mRequestTask ∨
      ∃ task, τ.mRequestTask = σ.mRequestTask ++ [task] ∧ handler ∈ task.taskID.pushers := by
  obtain ⟨-, tasks, htasks, hown⟩ := Handler.run_issues h
  cases tasks with
  | nil => exact .inl (htasks.trans (List.append_nil _))
  | cons task rest =>
      rcases Handler.length_mRequestTask h ⟨_, hown task List.mem_cons_self⟩ with
        hsame | ⟨task', hone⟩
      · exact .inl hsame
      · have hrest := List.append_cancel_left (htasks.symm.trans hone)
        obtain ⟨rfl, rfl⟩ := List.cons.inj hrest
        exact .inr ⟨task, htasks, hown task List.mem_cons_self⟩

end Handlers

namespace Server

variable {env : Env} {taken : Option RecvPacket × Server} {σ τ : Server}

/-- What a dispatch adds is the work of one task that its handler pushes. -/
lemma work_dispatch {bound : ℕ} (h : dispatch env taken = .ok τ)
    (hbound : ∀ q handler, taken.1 = some q → findHandler q.packetId = some handler →
      ∀ id : RedisTaskID, handler ∈ id.pushers → id.work ≤ bound) :
    τ.work ≤ taken.2.work + bound := by
  obtain ⟨p, σ⟩ := taken
  rcases dispatch_cases h with ⟨-, rfl⟩ | ⟨handler, q, hcall, hrun⟩
  · exact Nat.le_add_right _ _
  · obtain ⟨q', hq, hmap⟩ := Option.bind_eq_some_iff.mp hcall
    obtain ⟨handler', hfind, heq⟩ := Option.map_eq_some_iff.mp hmap
    obtain ⟨rfl, rfl⟩ := Prod.mk.inj heq
    obtain ⟨_, hpushes, -⟩ := Handler.run_pushes hrun
    simp only [work, Handler.run_mInComingPacketUserIndex hrun, hpushes.mSystemPacketQueue,
      hpushes.mResponseTask]
    rcases Handler.exists_pushed hrun with hsame | ⟨task, hone, hown⟩
    · rw [hsame]
      exact Nat.le_add_right _ _
    · have htask := hbound q' handler' hq hfind _ hown
      rw [hone, tasksWork_append, tasksWork_singleton]
      omega

/-- The task of a packet is less work than the packet. -/
lemma work_dispatch_packet (h : dispatch env taken = .ok τ) :
    τ.work + 1 ≤ taken.2.work + packetWork := by
  have hall : ∀ id : RedisTaskID, id.work ≤ 4 := fun id => by cases id <;> decide
  have hwork := work_dispatch h fun _ _ _ _ id _ => hall id
  rw [packetWork]
  omega

/-- A response whose handler pushes a task is that of a login. -/
lemma work_pushed {id id' : RedisTaskID} {handler : Handler}
    (hfind : findHandler id.code = some handler) (hown : handler ∈ id'.pushers) :
    id'.work + 1 ≤ id.work := by
  have hlogin : id = .responseLogin ∧ handler = .processLoginDBResult := by
    cases id <;> cases hfind
    case responseLogin => exact ⟨rfl, rfl⟩
    all_goals cases id' <;> simp [RedisTaskID.pushers] at hown
  obtain ⟨rfl, rfl⟩ := hlogin
  cases id' <;> simp_all [RedisTaskID.pushers, RedisTaskID.work]

/-- The packet of a response is the packet of its id. -/
lemma work_dispatch_response (h : dispatch env σ.responsePacket = .ok τ) :
    τ.work + 1 ≤ σ.takeResponseTask.2.work + σ.takeResponseTask.1.taskID.work := by
  have hpos := σ.takeResponseTask.1.taskID.work_pos
  have hwork : τ.work ≤ σ.takeResponseTask.2.work + (σ.takeResponseTask.1.taskID.work - 1) :=
    work_dispatch h fun q handler hq hfind id hown => by
      rw [σ.packetId_responsePacket hq] at hfind
      have hless := work_pushed hfind hown
      omega
  omega

end Server

/-! ### The Redis thread -/

section TaskProcess

variable {env : RedisEnv} {db : Store} {task : RedisTask} {req : RedisTradeReq}
  {out : RedisOutcome}

lemma work_requestTradeExchange (h : requestTradeExchange env db req = .ok out) :
    tasksWork out.responses ≤ 2 := by
  rw [requestTradeExchange] at h
  split at h
  · obtain ⟨a, -, h⟩ := exists_of_bind_eq_ok h
    obtain ⟨b, -, h⟩ := exists_of_bind_eq_ok h
    obtain ⟨a', -, h⟩ := exists_of_bind_eq_ok h
    obtain ⟨b', -, h⟩ := exists_of_bind_eq_ok h
    simp only at h
    split at h
    all_goals
      obtain rfl := Except.ok.inj h
      exact le_rfl
  · obtain rfl := Except.ok.inj h
    exact Nat.zero_le _

lemma work_requestShopUpdate (h : requestShopUpdate env db task = .ok out) :
    tasksWork out.responses ≤ 1 := by
  rw [requestShopUpdate] at h
  simp only [bind, Except.bind] at h
  repeat' split at h
  all_goals cases h
  all_goals simp [tasksWork, RedisTask.make, RedisTaskID.work]

lemma work_requestShopBuy (h : requestShopBuy env db task = .ok out) :
    tasksWork out.responses + tasksWork out.requests ≤ 3 := by
  rw [requestShopBuy] at h
  obtain ⟨inven, -, h⟩ := exists_of_bind_eq_ok h
  split at h
  all_goals
    obtain rfl := Except.ok.inj h
    simp [tasksWork, RedisTask.make, RedisTaskID.work]

/-- **What a task leads to** is less work than the task. -/
theorem work_taskProcess (h : taskProcess env db task = .ok out) :
    tasksWork out.responses + tasksWork out.requests + 1 ≤ task.taskID.work := by
  rw [taskProcess] at h
  split at h <;> rename_i hid
  · obtain rfl := Except.ok.inj h
    rw [hid]
    exact le_rfl
  · obtain rfl := Except.ok.inj h
    rw [hid]
    exact le_rfl
  · obtain ⟨response, hresponses, hresponse, -⟩ := Query.exists_response_loadInventory h
    rw [hresponses, (tasks_requestLoadInventory h).1, tasksWork_singleton, hresponse, hid]
    exact le_rfl
  · have hwork := work_requestTradeExchange h
    rw [(tasks_requestTradeExchange h).1, hid, tasksWork_nil, RedisTaskID.work]
    omega
  · have hwork := work_requestShopUpdate h
    rw [(tasks_requestShopUpdate h).1, hid, tasksWork_nil, RedisTaskID.work]
    omega
  · have hwork := work_requestShopBuy h
    rw [hid, RedisTaskID.work]
    omega
  · obtain rfl := Except.ok.inj h
    exact task.taskID.work_pos

end TaskProcess

/-! ### What is taken -/

namespace Server

variable {env : Env} {σ τ : Server}

/-- An empty queue gives nothing to dispatch; what is taken from another one has been paid for. -/
lemma taken_of_dispatch {α : Type*} {queue : List α} {taken : Option RecvPacket × Server}
    (h : dispatch env taken = .ok τ) (hnil : queue = [] → taken = (none, σ))
    (hcons : ∀ first rest, queue = first :: rest → τ.work + 1 ≤ σ.work) :
    (queue.take 1).length + τ.work ≤ σ.work := by
  cases queue with
  | nil =>
      rw [hnil rfl] at h
      obtain rfl := Except.ok.inj h
      exact (Nat.zero_add _).le
  | cons first rest =>
      have hless := hcons first rest rfl
      simp only [List.take_succ_cons, List.take_zero, List.length_singleton]
      omega

lemma taken_clientPacket (h : dispatch env σ.clientPacket = .ok τ) :
    (σ.mInComingPacketUserIndex.take 1).length + τ.work ≤ σ.work := by
  refine taken_of_dispatch h (fun hqueue => ?_) fun i rest hqueue => ?_
  · rw [clientPacket, dequePacketData, hqueue]
    rfl
  · have hless := work_dispatch_packet h
    have htaken : σ.clientPacket.2.work + packetWork = σ.work := by
      simp only [clientPacket, dequePacketData, hqueue, work, packetWork, List.length_cons, modUser]
      omega
    omega

lemma taken_systemPacket (h : dispatch env σ.systemPacket = .ok τ) :
    (σ.mSystemPacketQueue.take 1).length + τ.work ≤ σ.work := by
  refine taken_of_dispatch h (fun hqueue => ?_) fun packet rest hqueue => ?_
  · rw [systemPacket, dequeSystemPacketData, hqueue]
    rfl
  · have hless := work_dispatch_packet h
    have htaken : σ.systemPacket.2.work + packetWork = σ.work := by
      simp only [systemPacket, dequeSystemPacketData, hqueue, work, packetWork, List.length_cons]
      omega
    omega

lemma taken_response (h : dispatch env σ.responsePacket = .ok τ) :
    (σ.mResponseTask.take 1).length + τ.work ≤ σ.work := by
  refine taken_of_dispatch h (fun hqueue => ?_) fun task rest hqueue => ?_
  · rw [responsePacket, takeResponseTask, hqueue]
    rfl
  · have hless := work_dispatch_response h
    have htaken : σ.takeResponseTask.2.work + σ.takeResponseTask.1.taskID.work = σ.work := by
      simp only [takeResponseTask, hqueue, work, tasksWork_cons]
      omega
    omega

/-- An empty queue gives the task that does nothing. -/
lemma taken_redisTask {env : RedisEnv} {db : Store} {out : RedisOutcome}
    (h : taskProcess env db σ.takeRequestTask.1 = .ok out) :
    (σ.mRequestTask.take 1).length + (World.commit σ.takeRequestTask.2 out).server.work ≤
      σ.work := by
  have hless := work_taskProcess h
  have hcommit : (World.commit σ.takeRequestTask.2 out).server.work =
      σ.takeRequestTask.2.work + tasksWork out.responses + tasksWork out.requests := by
    simp only [World.commit, work, tasksWork_append]
    omega
  cases hqueue : σ.mRequestTask with
  | nil =>
      have hnone : σ.takeRequestTask = ({}, σ) := by rw [takeRequestTask, hqueue]
      rw [hnone] at h hcommit
      obtain rfl := Except.ok.inj h
      rw [hnone, hcommit]
      exact (Nat.zero_add _).le
  | cons task rest =>
      have htaken : σ.takeRequestTask.2.work + σ.takeRequestTask.1.taskID.work = σ.work := by
        simp only [takeRequestTask, hqueue, work, tasksWork_cons]
        omega
      simp only [List.take_succ_cons, List.take_zero, List.length_singleton]
      omega

end Server

/-! ### The steps -/

namespace World

/-- The work that waits. -/
def work (w : World) : ℕ := w.server.work

/-- What a step takes from its queue: one packet or task, if there is one. -/
def taken (w : World) : Event → ℕ
  | .clientPacket _ => (w.server.mInComingPacketUserIndex.take 1).length
  | .systemPacket _ => (w.server.mSystemPacketQueue.take 1).length
  | .response _ => (w.server.mResponseTask.take 1).length
  | .redisTask _ => (w.server.mRequestTask.take 1).length
  | _ => 0

/-- The work that comes in with an event: a receive, a connection that begins or ends, the clock, and
a message. -/
def load (_ : World) : Event → ℕ
  | .receive .. | .connect _ | .close _ => packetWork
  | .tick _ => RedisTaskID.requestShopUpdate.work
  | .subscribe .. => RedisTaskID.responseNotice.work
  | _ => 0

variable {w w' : World} {e : Event}

/-- **One step**: what it takes and what is left to do is what there was to do and what comes in. -/
lemma taken_add_work_le (h : w.step e = some w') : w.taken e + w'.work ≤ w.work + w.load e := by
  cases e with
  | receive i pData =>
      obtain ⟨recv, -, rfl⟩ := exists_receive h
      simp only [taken, load, work, Server.work, packetWork, Server.modUser, List.length_append,
        List.length_singleton]
      omega
  | connect i =>
      obtain rfl := Option.some.inj h
      simp only [taken, load, work, Server.work, packetWork, Server.pushSystemPacket,
        List.length_append, List.length_singleton]
      omega
  | close i =>
      obtain rfl := Option.some.inj h
      simp only [taken, load, work, Server.work, packetWork, Server.pushSystemPacket,
        List.length_append, List.length_singleton]
      omega
  | tick env =>
      obtain rfl := Option.some.inj h
      simp only [taken, load, work, Server.work, tick, Server.pushTask, tasksWork_append,
        tasksWork_singleton, RedisTask.make]
      omega
  | subscribe env message =>
      obtain rfl := Option.some.inj h
      simp only [taken, load, work, Server.work, tasksWork_append, tasksWork_singleton,
        Query.Logged.taskID_subscribeTask]
      omega
  | clientPacket env => exact Server.taken_clientPacket (exists_dispatch h)
  | systemPacket env => exact Server.taken_systemPacket (exists_dispatch h)
  | response env => exact Server.taken_response (exists_dispatch h)
  | redisTask env =>
      obtain ⟨out, hout, rfl⟩ := exists_taskProcess h
      exact Server.taken_redisTask hout

/-- **The server does not make work for itself.** In every state of every run, whatever clients send
and in whatever order the threads go on: the packets and tasks that the threads have taken from the
queues, with what those that wait lead to, are no more than what waited at the start and what has
come in: five for a receive and for a connection that begins or ends, two for a tick of the clock and
one for a message. -/
theorem taken_le (w : World) (es : List Event) :
    Runs.Always (Runs.withHistory World.step (Runs.spend taken load))
      (fun s => s.2.1 + s.1.work ≤ w.work + s.2.2) (w, 0, 0) es := by
  have hstep : ∀ (w : World) (e : Event) (w' : World), w.step e = some w' →
      w.taken e + w'.work ≤ w.work + w.load e := fun _ _ _ h => taken_add_work_le h
  exact Runs.always_budget hstep w es

/-- An event by which a thread takes something from its queue. -/
def Takes (w : World) (e : Event) : Prop := w.taken e ≠ 0

/-- An event that takes something brings nothing in. -/
lemma load_of_takes (h : w.Takes e) : w.load e = 0 := by
  cases e <;> first | rfl | exact absurd rfl h

/-- A step that takes something leaves less to do. -/
lemma work_lt_of_takes (htakes : w.Takes e) (h : w.step e = some w') : w'.work < w.work := by
  have hpaid := taken_add_work_le h
  rw [load_of_takes htakes] at hpaid
  have hpos : w.taken e ≠ 0 := htakes
  omega

/-- Nothing is left to do exactly where no thread finds anything in its queue. -/
theorem work_eq_zero_iff : w.work = 0 ↔ ∀ e, ¬w.Takes e := by
  constructor
  · intro hzero e htakes
    simp only [work, Server.work, packetWork, Nat.add_eq_zero_iff, Nat.mul_eq_zero,
      tasksWork_eq_zero_iff, List.length_eq_zero_iff] at hzero
    obtain ⟨⟨hqueues, hresponses⟩, hrequests⟩ := hzero
    obtain ⟨hincoming, hsystem⟩ := hqueues.resolve_left (by decide)
    refine htakes ?_
    cases e <;> simp [taken, hincoming, hsystem, hresponses, hrequests]
  · intro hnone
    have hempty : ∀ {α : Type} {queue : List α}, ¬(queue.take 1).length ≠ 0 → queue = [] := by
      intro α queue hqueue
      cases queue with
      | nil => rfl
      | cons a rest => exact absurd Nat.one_ne_zero hqueue
    simp only [work, Server.work, hempty (hnone (.clientPacket {})),
      hempty (hnone (.systemPacket {})), hempty (hnone (.response {})),
      hempty (hnone (.redisTask {})), List.length_nil, tasksWork_nil]
    rfl

/-- **Without anything new the threads come to rest**: they take no more than what waits leads to,
and whatever order they go on in, nothing is left once they have taken that much. -/
theorem length_add_le {w' : World} {es : List Event} (h : Runs.Along World.step Takes w es)
    (hr : Runs.run World.step w es = some w') : es.length + w'.work ≤ w.work :=
  Runs.length_add_le_of_along (fun _ _ _ htakes hstep => work_lt_of_takes htakes hstep) h hr

end World

end CKGameServer
