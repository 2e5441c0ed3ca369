import CKGameServer.Inventory.Load
import CKGameServer.Lobby.AuthenticationGate
import CKGameServer.Packets.Senders
import CKGameServer.Session.History

/-!
Whose inventory a client is sent (`ProcessLoginDBResult`, `REQUEST_LOAD_INVENTORY`,
`REQUEST_SHOP_BUY`, `ProcessInventoryDBResult`).

The task that loads an inventory has a slot and an id of its own, and so has the response; what
the handler of the response sends and writes depends on the slot only.

* `World.Recorded`: the server, and beside it the id with which each slot is logged in, and for
  each response the database as it was when the response was made.
* `World.Recorded.logins_always`: the ids are those the server keeps for its users.
* `Delivers`: what a step sends as an inventory, and what `ProcessInventoryDBResult` writes to
  one, is the inventory stored for the user of the slot; `Delivers.mInventory`: an inventory
  then changes to that and to nothing else.
* `Underway`: the loads that wait are loads for the user of their slot.
* `delivers_of_keepsOwner`: so it is in every run whose logins are of slot 0 and short, whose
  slots change their user while nothing is loaded for them, whose purchases are made for the user
  of their slot, whose loads are answered, and whose clients send no inventories themselves.
* `inventory_of_another`: a user is sent the inventory of another one.
-/

namespace CKGameServer

open Memory

/-- What the server does not keep. -/
structure Records where
  /-- The id with which a slot is logged in. -/
  logins : ℕ → Option Bytes := fun _ => none
  /-- For each task in `mResponseTask` the database as it was when the task was made. -/
  stores : List Store := []

/-- Who is logged in after an operation of the lobby. -/
def Lobby.loginsAfter (logins : ℕ → Option Bytes) : Option Op → ℕ → Option Bytes
  | some (.connect u) | some (.disconnect u) => Function.update logins u none
  | some (.login u userID) => Function.update logins u (some userID)
  | _ => logins

/-- The load of an inventory for the slot is under way. -/
def Server.Loading (σ : Server) (u : ℕ) : Prop :=
  (∃ task ∈ σ.mRequestTask, task.taskID = .requestLoadInventory ∧ task.userIndex = u) ∨
    ∃ task ∈ σ.mResponseTask, task.taskID = .responseLoadInventory ∧ task.userIndex = u

instance (σ : Server) (u : ℕ) : Decidable (σ.Loading u) := inferInstanceAs (Decidable (_ ∨ _))

namespace World

/-- The server with its records. -/
abbrev Recorded := World × Records

namespace Recorded

variable (s : Recorded)

/-- The records after an event. -/
def next (e : Event) (w' : World) : Records where
  logins := Lobby.loginsAfter s.2.logins (s.1.op e)
  stores := s.2.stores.drop e.responsesTaken ++
    (w'.server.mResponseTask.drop (s.1.server.mResponseTask.drop e.responsesTaken).length).map
      fun _ => w'.store

lemma next_logins (e : Event) (w' : World) :
    (s.next e w').logins = Lobby.loginsAfter s.2.logins (s.1.op e) := rfl

/-- A step of the server and of its records. -/
def step : Recorded → Event → Option Recorded := Runs.withHistory World.step next

/-- The start of the server: nobody is logged in. -/
def init (maxClient : ℕ) (memory : ℕ → View) (store : Store) : Recorded :=
  (World.init maxClient memory store, {})

/-- **The runs of the server with its records are the runs of the server.** -/
theorem run_recorded (es : List Event) :
    (Runs.run step s es).map Prod.fst = Runs.run World.step s.1 es :=
  Runs.run_withHistory World.step next s es

/-! ### Logins -/

end Recorded

end World

namespace Lobby

variable {L : Lobby} {logins : ℕ → Option Bytes} {op : Option Op}

/-- The users that are logged in are those of the lobby. -/
def Agrees (L : Lobby) (logins : ℕ → Option Bytes) : Prop :=
  ∀ u userID, logins u = some userID →
    (L.session u).userID = userID ∧ (L.session u).state ≠ .none

/-- A record that keeps its id and is not emptied. -/
lemma Agrees.setSession (h : L.Agrees logins) (v : ℕ) {x : Session}
    (hid : x.userID = (L.session v).userID) (hstate : x.state ≠ .none) :
    (L.setSession v x).Agrees logins := fun u userID hlogin => by
  obtain ⟨huserID, hnone⟩ := h u userID hlogin
  rw [setSession_session, Function.update_apply]
  split
  · rename_i huv
    exact ⟨by rw [hid, ← huv, huserID], hstate⟩
  · exact ⟨huserID, hnone⟩

lemma Agrees.leaveRoom (h : L.Agrees logins) (v : ℕ) : (L.leaveRoom v).Agrees logins := by
  cases hroom : (L.session v).room with
  | none => rwa [leaveRoom_of_none hroom]
  | some r =>
      rw [leaveRoom_of_some hroom]
      exact h.setSession v (x := { L.session v with state := .login }) rfl (by simp)

/-- A record that is replaced together with the login of its user. -/
lemma Agrees.update (h : L.Agrees logins) (v : ℕ) {x : Session} {login : Option Bytes}
    (hlogin : ∀ userID, login = some userID → x.userID = userID ∧ x.state ≠ .none) :
    (L.setSession v x).Agrees (Function.update logins v login) := fun u userID hu => by
  rw [Function.update_apply] at hu
  rw [setSession_session, Function.update_apply]
  split
  · rename_i huv
    rw [if_pos huv] at hu
    exact hlogin userID hu
  · rename_i huv
    rw [if_neg huv] at hu
    exact h u userID hu

/-- Who is not logged in need not agree. -/
lemma Agrees.logout (h : L.Agrees logins) (v : ℕ) :
    L.Agrees (Function.update logins v none) := fun u userID hu => by
  rw [Function.update_apply] at hu
  split at hu
  · cases hu
  · exact h u userID hu

/-- Every operation keeps it. -/
lemma Agrees.applyOption (h : L.Agrees logins) :
    (L.applyOption op).Agrees (loginsAfter logins op) := by
  cases op with
  | none => exact h
  | some op =>
      rw [Lobby.applyOption, loginsAfter.eq_def]
      cases op with
      | connect v => exact h.update v (by simp)
      | login v userID' => exact h.update v (by simp)
      | leave v => exact h.leaveRoom v
      | enter v r =>
          rw [Lobby.apply]
          split
          · exact h.setSession v (x := { L.session v with state := .room, room := some r }) rfl
              (by simp)
          · exact h
      | disconnect v =>
          obtain ⟨L', hL', hdisconnect⟩ := L.apply_disconnect_cases v
          have hkept : L'.Agrees logins := by
            rcases hL' with rfl | rfl
            · exact h
            · exact h.leaveRoom v
          rcases hdisconnect with hdisconnect | hdisconnect
          · rw [hdisconnect]
            exact hkept.logout v
          · rw [hdisconnect]
            exact hkept.update v (by simp)

end Lobby

namespace World

namespace Recorded

variable (s : Recorded)

/-- **The ids that slots are logged in with are those of their users**, in every state of every
run. -/
theorem logins_always (maxClient : ℕ) (memory : ℕ → View) (store : Store) (es : List Event) :
    Runs.Always step (fun s => s.1.server.lobby.Agrees s.2.logins)
      (init maxClient memory store) es := by
  refine Runs.always_of_step (fun s e s' hs h => ?_) es fun _ _ h => by cases h
  obtain ⟨w', hw', rfl⟩ := Option.map_eq_some_iff.mp h
  rw [next_logins, step_lobby hw']
  exact hs.applyOption

/-! ### Delivery -/

/-- The response that an event takes was made while the items were stored for the user that is
logged in at slot `i`. -/
def Owns : Event → ℕ → Inventory → Prop
  | .response _, i, items => ∃ db userID, s.2.stores.head? = some db ∧
      s.2.logins i = some userID ∧ items = inventoryAt db userID
  | _, _, _ => False

/-- **Delivery**: a step sends an `INVENTORY_INFO` only to a user whose inventory it is, and
`ProcessInventoryDBResult` writes only that to the user. -/
def Delivers (e : Event) : Prop :=
  ∀ s', step s e = some s' →
    (∀ i uuid items, (i, .inventoryInfo uuid items) ∈ s'.1.server.sent.drop s.1.server.sent.length →
      s.Owns e i items) ∧
    ∀ p, s.1.call e = some (.processInventoryDBResult, p) →
      s.Owns e p.clientIndex (s'.1.server.mUserObjPool p.clientIndex).mInventory

/-! ### The condition -/

/-- A connection begins or ends, or a login succeeds, only while no inventory is loaded for
another user of the slot, and a login is one of slot 0, or of the user that slot 0 has, with an id
that fits the request for its inventory. -/
def OpKeepsOwner : Option Lobby.Op → Prop
  | some (.connect u) | some (.disconnect u) => ¬s.1.server.Loading u
  | some (.login u userID) => (s.1.server.Loading u → s.2.logins u = some userID) ∧
      (u = 0 ∨ s.2.logins 0 = some userID) ∧ 4 + (userID.length + 1) ≤ redisInvenResSize
  | _ => True

/-- A load can be answered with what is stored, and a purchase that finds an empty slot is made
for the user of its slot. -/
def TaskKeepsOwner (env : RedisEnv) (task : RedisTask) : Prop :=
  (task.taskID = .requestLoadInventory → CanLoad env s.1.store (loadedUser task)) ∧
    (task.taskID = .requestShopBuy → ∀ inven,
      (readInventory (env.replies 0) s.1.store (boughtBy task)).toOption = some inven →
      firstEmptySlot inven ≠ none → s.2.logins task.userIndex = some (boughtBy task))

/-- A client does not send a packet with the id of the response to a load, and a task that is
carried out keeps the owner. -/
def InputKeepsOwner : Event → Prop
  | .clientPacket _ => ∀ p, s.1.server.clientPacket.1 = some p →
      p.packetId ≠ RedisTaskID.responseLoadInventory.code
  | .redisTask env => s.TaskKeepsOwner env s.1.server.takeRequestTask.1
  | _ => True

/-- The condition on a step. -/
def KeepsOwner (e : Event) : Prop := s.OpKeepsOwner (s.1.op e) ∧ s.InputKeepsOwner e

/-! ### The invariant -/

end Recorded

end World

/-- The response to a load answers with what is stored, in the database as it was, for the user of
its slot. -/
def Records.Answers (r : Records) (task : RedisTask) (db : Store) : Prop :=
  task.taskID = .responseLoadInventory → ∃ userID, r.logins task.userIndex = some userID ∧
    itemSlotsAt task.pData = inventoryAt db userID

namespace World.Recorded

/-- **The invariant**: the loads that wait are loads for the user of their slot. -/
structure Underway (s : Recorded) : Prop where
  requests : ∀ task ∈ s.1.server.mRequestTask, task.taskID = .requestLoadInventory →
    s.2.logins task.userIndex = some (loadedUser task)
  responses : List.Forall₂ s.2.Answers s.1.server.mResponseTask s.2.stores
  short : ∀ u userID, s.2.logins u = some userID → 4 + (userID.length + 1) ≤ redisInvenResSize
  system : ∀ q ∈ s.1.server.mSystemPacketQueue,
    q.packetId = PacketId.sysUserConnect.code ∨ q.packetId = PacketId.sysUserDisconnect.code

variable {s s' : Recorded} {e : Event} {w' : World}

lemma underway_init (maxClient : ℕ) (memory : ℕ → View) (store : Store) :
    (init maxClient memory store).Underway where
  requests _ h := absurd h List.not_mem_nil
  responses := .nil
  short _ _ h := by cases h
  system _ h := absurd h List.not_mem_nil

/-- Under the condition a slot keeps its user while an inventory is loaded for it. -/
lemma OpKeepsOwner.logins_of_loading {op : Option Lobby.Op} {u : ℕ} {userID : Bytes}
    (h : s.OpKeepsOwner op) (hloading : s.1.server.Loading u)
    (hlogin : s.2.logins u = some userID) : Lobby.loginsAfter s.2.logins op u = some userID := by
  cases op with
  | none => exact hlogin
  | some op =>
      cases op with
      | enter v r => exact hlogin
      | leave v => exact hlogin
      | login v userID' =>
          rw [Lobby.loginsAfter, Function.update_apply]
          split
          · rename_i huv
            subst huv
            rw [← h.1 hloading, hlogin]
          · exact hlogin
      | connect v | disconnect v =>
          have hne : u ≠ v := by
            rintro rfl
            exact h hloading
          rw [Lobby.loginsAfter, Function.update_of_ne hne, hlogin]

/-- Under the condition an id that is logged in fits the request for its inventory. -/
lemma OpKeepsOwner.short {op : Option Lobby.Op} (h : s.OpKeepsOwner op) (hs : s.Underway) (u : ℕ)
    (userID : Bytes) (hlogin : Lobby.loginsAfter s.2.logins op u = some userID) :
    4 + (userID.length + 1) ≤ redisInvenResSize := by
  cases op with
  | none => exact hs.short u userID hlogin
  | some op =>
      cases op with
      | enter v r => exact hs.short u userID hlogin
      | leave v => exact hs.short u userID hlogin
      | login v userID' =>
          rw [Lobby.loginsAfter, Function.update_apply] at hlogin
          split at hlogin
          · rw [← Option.some.inj hlogin]
            exact h.2.2
          · exact hs.short u userID hlogin
      | connect v | disconnect v =>
          rw [Lobby.loginsAfter, Function.update_apply] at hlogin
          split at hlogin
          · cases hlogin
          · exact hs.short u userID hlogin

/-- The invariant after a step that appends to the queues what belongs there. -/
lemma Underway.next (hs : s.Underway) (hkeeps : s.OpKeepsOwner (s.1.op e))
    (h : s.1.step e = some w') (requests responses : List RedisTask)
    (hrequests : w'.server.mRequestTask =
      s.1.server.mRequestTask.drop e.requestsTaken ++ requests)
    (hresponses : w'.server.mResponseTask =
      s.1.server.mResponseTask.drop e.responsesTaken ++ responses)
    (hnewRequests : ∀ task ∈ requests, task.taskID = .requestLoadInventory →
      (s.next e w').logins task.userIndex = some (loadedUser task))
    (hnewResponses : ∀ task ∈ responses, (s.next e w').Answers task w'.store) :
    Underway (w', s.next e w') where
  requests task htask hid := by
    rw [hrequests] at htask
    rcases List.mem_append.mp htask with hold | hnew
    · have hmem := List.mem_of_mem_drop hold
      exact hkeeps.logins_of_loading (.inl ⟨task, hmem, hid, rfl⟩) (hs.requests task hmem hid)
    · exact hnewRequests task hnew hid
  responses := by
    have hold := List.forall₂_and_left (p := (· ∈ s.1.server.mResponseTask)) _ _ |>.mpr
      ⟨fun _ => id, hs.responses⟩
    rw [Recorded.next, hresponses, List.drop_left]
    refine forall₂_taken_append _ hold (fun task db _ hanswers hid => ?_) hnewResponses
    obtain ⟨userID, hlogin, hitems⟩ := hanswers.2 hid
    exact ⟨userID, hkeeps.logins_of_loading (.inr ⟨task, hanswers.1, hid, rfl⟩) hlogin, hitems⟩
  short := hkeeps.short hs
  system q hq := (system_step h hq).elim (hs.system q) id

/-! ### Dispatches -/

end World.Recorded

namespace Server

variable {env : Env} {p : Option RecvPacket} {σ τ : Server}

/-- Only `ProcessLoginDBResult` asks for a load: that of the inventory of the user it logs in. -/
lemma dispatch_loadTask (h : dispatch env (p, σ) = .ok τ) :
    ∃ tasks, σ.Pushes τ tasks ∧ ∀ task ∈ tasks, task.taskID = .requestLoadInventory →
      ∃ q, p = some q ∧ findHandler q.packetId = some .processLoginDBResult ∧
        loginResultAt q.pPacket = ErrorCode.none.code ∧
        task = PacketManager.loadInventoryTask env q.clientIndex q.pPacket := by
  obtain ⟨tasks, hpushes, -⟩ := dispatch_pushes h
  refine ⟨tasks, hpushes, fun task htask hid => ?_⟩
  have hpushed := hpushes.mRequestTask
  rcases dispatch_cases h with ⟨-, rfl⟩ | ⟨handler, q, hcall, hrun⟩
  · rw [List.self_eq_append_right.mp hpushed] at htask
    cases htask
  · obtain ⟨q', hp, hhandler⟩ := Option.bind_eq_some_iff.mp hcall
    obtain ⟨handler', hfind, heq⟩ := Option.map_eq_some_iff.mp hhandler
    obtain ⟨rfl, rfl⟩ := Prod.mk.inj heq
    obtain ⟨tasks', hissued, hown⟩ := (Handler.run_issues hrun).tasks
    obtain rfl := List.append_cancel_left (hpushed.symm.trans hissued)
    have hlogin : handler' = .processLoginDBResult := by
      have hpusher := hown task htask
      rw [hid] at hpusher
      exact List.mem_singleton.mp hpusher
    subst hlogin
    refine ⟨q', hp, hfind, ?_⟩
    rw [← Except.ok.inj hrun, PacketManager.processLoginDBResult] at hpushed
    split at hpushed
    · rename_i hsuccess
      have htasks : [PacketManager.loadInventoryTask env q'.clientIndex q'.pPacket] = tasks :=
        List.append_cancel_left hpushed
      rw [← htasks] at htask
      exact ⟨hsuccess, List.mem_singleton.mp htask⟩
    · rw [List.self_eq_append_right.mp hpushed] at htask
      cases htask

end Server

namespace World.Recorded

variable {s s' : Recorded} {e : Event} {w' : World}

/-- A dispatch keeps the invariant. -/
lemma Underway.dispatch (hs : s.Underway) (hkeeps : s.OpKeepsOwner (s.1.op e))
    (h : s.1.step e = some w') {env : Env} {p : Option RecvPacket} {σ : Server}
    (hdispatch : Server.dispatch env (p, σ) = .ok w'.server) (hp : s.1.packet e = p)
    (hrequests : σ.mRequestTask = s.1.server.mRequestTask.drop e.requestsTaken)
    (hresponses : σ.mResponseTask = s.1.server.mResponseTask.drop e.responsesTaken) :
    Underway (w', s.next e w') := by
  obtain ⟨tasks, hpushes, hloads⟩ := Server.dispatch_loadTask hdispatch
  refine hs.next hkeeps h tasks [] (by rw [hpushes.mRequestTask, hrequests])
    (by rw [hpushes.mResponseTask, hresponses, List.append_nil]) (fun task htask hid => ?_)
    (by simp)
  obtain ⟨q, rfl, hfind, hsuccess, rfl⟩ := hloads task htask hid
  have hop : s.1.op e = some (.login q.clientIndex (q.pPacket.cString 0)) := by
    rw [op, call, hp]
    simp [hfind, Handler.op, hsuccess]
  rw [hop] at hkeeps
  obtain ⟨-, hzero, hfits⟩ := hkeeps
  have hlogin : (s.next e w').logins 0 = some (q.pPacket.cString 0) := by
    rw [next_logins, hop, Lobby.loginsAfter, Function.update_apply]
    split
    · rfl
    · rename_i hindex
      exact hzero.resolve_left (Ne.symm hindex)
  rw [loadedUser_loadInventoryTask hfits]
  exact hlogin

/-! ### The Redis thread -/

/-- A request to load an inventory is for the user of its slot when it is taken. -/
lemma Underway.nextRequest (hs : s.Underway)
    (hid : s.1.server.takeRequestTask.1.taskID = .requestLoadInventory) :
    s.2.logins s.1.server.takeRequestTask.1.userIndex =
      some (loadedUser s.1.server.takeRequestTask.1) := by
  rw [Server.takeRequestTask] at hid ⊢
  cases hq : s.1.server.mRequestTask with
  | nil =>
      rw [hq] at hid
      cases hid
  | cons task rest =>
      rw [hq] at hid
      exact hs.requests task (hq ▸ List.mem_cons_self) hid

/-- A purchase that asks for a load has found an empty slot. -/
lemma firstEmptySlot_of_reload {env : RedisEnv} {db : Store} {task : RedisTask}
    {out : RedisOutcome} (h : requestShopBuy env db task = .ok out) (hrequests : out.requests ≠ []) :
    ∃ inven, readInventory (env.replies 0) db (boughtBy task) = .ok inven ∧
      firstEmptySlot inven ≠ none := by
  cases hread : readInventory (env.replies 0) db (boughtBy task) with
  | error e => cases (requestShopBuy_of_error hread).symm.trans h
  | ok inven =>
      refine ⟨inven, rfl, fun hfull => hrequests ?_⟩
      rw [requestShopBuy_of_read hread, hfull] at h
      rw [← Except.ok.inj h]

/-- A pass of the Redis thread keeps the invariant. -/
lemma Underway.redisTask (hs : s.Underway) {env : RedisEnv}
    (hkeeps : s.TaskKeepsOwner env s.1.server.takeRequestTask.1)
    (h : s.1.step (.redisTask env) = some w') : Underway (w', s.next (.redisTask env) w') := by
  obtain ⟨out, hprocess, rfl⟩ := exists_taskProcess h
  obtain ⟨hrequests, hresponses, -, -⟩ := s.1.server.queues_takeRequestTask
  have hop : s.OpKeepsOwner (s.1.op (.redisTask env)) := trivial
  refine hs.next hop h out.requests out.responses (congrArg (· ++ out.requests) hrequests)
    (congrArg (· ++ out.responses) hresponses) (fun request hrequest hid => ?_)
    fun response hresponse hid => ?_
  · by_cases hload : s.1.server.takeRequestTask.1.taskID = .requestLoadInventory
    · rw [(taskProcess_login (.inr hload) hprocess).1] at hrequest
      cases hrequest
    · obtain ⟨hbuy, rfl⟩ := (taskProcess_noLoad hload hprocess).2 request hrequest
      rw [taskProcess, hbuy] at hprocess
      obtain ⟨inven, hread, hempty⟩ :=
        firstEmptySlot_of_reload hprocess (List.ne_nil_of_mem hrequest)
      have hlogin := hkeeps.2 hbuy inven (by rw [hread]; rfl) hempty
      have hfits := hs.short _ _ hlogin
      simp only [redisInvenResSize, inventorySize] at hfits
      rw [loadedUser_reloadTask (by rw [maxUserIdLen]; omega)]
      exact hlogin
  · by_cases hload : s.1.server.takeRequestTask.1.taskID = .requestLoadInventory
    · have hlogin := hs.nextRequest hload
      rw [taskProcess, hload] at hprocess
      obtain ⟨-, response', hsingle, -, hindex, hitems⟩ :=
        requestLoadInventory_delivers (hkeeps.1 hload) hprocess
      rw [hsingle] at hresponse
      rw [List.mem_singleton.mp hresponse]
      exact ⟨_, hindex ▸ hlogin, hitems⟩
    · exact absurd hid ((taskProcess_noLoad hload hprocess).1 response hresponse)

/-- **One step** under the condition keeps the invariant. -/
theorem Underway.step (hs : s.Underway) (hkeeps : s.KeepsOwner e) (h : s.step e = some s') :
    s'.Underway := by
  obtain ⟨w', hw', rfl⟩ := Option.map_eq_some_iff.mp h
  obtain ⟨hop, hevent⟩ := hkeeps
  cases e with
  | receive i pData =>
      obtain ⟨recv, -, rfl⟩ := World.exists_receive hw'
      exact hs.next hop hw' [] [] (List.append_nil _).symm (List.append_nil _).symm (by simp)
        (by simp)
  | connect i | close i =>
      obtain rfl := Option.some.inj hw'
      exact hs.next hop hw' [] [] (List.append_nil _).symm (List.append_nil _).symm (by simp)
        (by simp)
  | clientPacket env =>
      obtain ⟨hrequests, hresponses, -⟩ := s.1.server.queues_dequePacketData
      exact hs.dispatch hop hw' (exists_dispatch hw') rfl hrequests hresponses
  | systemPacket env =>
      obtain ⟨hrequests, hresponses, -⟩ := s.1.server.queues_systemPacket
      exact hs.dispatch hop hw' (exists_dispatch hw') rfl hrequests hresponses
  | response env =>
      obtain ⟨hrequests, hresponses, -⟩ := s.1.server.queues_takeResponseTask
      exact hs.dispatch hop hw' (exists_dispatch hw') rfl hrequests hresponses
  | tick env =>
      obtain rfl := Option.some.inj hw'
      exact hs.next hop hw' [_] [] rfl (List.append_nil _).symm (by simp [RedisTask.make])
        (by simp)
  | redisTask env => exact hs.redisTask hevent hw'
  | subscribe env message =>
      obtain rfl := Option.some.inj hw'
      exact hs.next hop hw' [] [_] (List.append_nil _).symm rfl (by simp)
        (by simp [Records.Answers, Server.subscribeTask, RedisTask.make])

/-! ### What is delivered -/

end World.Recorded

/-- `ProcessInventoryDBResult` writes the slots of the response. -/
lemma mInventory_processInventoryDBResult (i : ℕ) (p : View) (σ : Server) :
    ((PacketManager.processInventoryDBResult i p σ).mUserObjPool i).mInventory = itemSlotsAt p := by
  funext k
  simp only [PacketManager.processInventoryDBResult, Server.sendPacketFunc,
    Server.sendAll_mUserObjPool, Server.modUser_mUserObjPool, Function.update_self]
  exact User.mInventory_foldl_setInventory _ (.inr (List.mem_finRange k))

namespace World.Recorded

variable {s s' : Recorded} {e : Event} {w w' : World}

/-- An inventory is sent by `ProcessInventoryDBResult` only, which sends and writes the slots of
the response. -/
lemma inventory_of_step (h : w.step e = some w') :
    (∀ i uuid items, (i, .inventoryInfo uuid items) ∈ w'.server.sent.drop w.server.sent.length →
      ∃ p, w.call e = some (.processInventoryDBResult, p) ∧ i = p.clientIndex ∧
        items = itemSlotsAt p.pPacket) ∧
    ∀ p, w.call e = some (.processInventoryDBResult, p) →
      (w'.server.mUserObjPool p.clientIndex).mInventory = itemSlotsAt p.pPacket := by
  obtain ⟨σ, hσ, ⟨hcall, hsame⟩ | ⟨handler, p, env, hcall, hrun⟩⟩ := step_cases h
  · refine ⟨fun i uuid items hsent => ?_, fun p hp => ?_⟩
    · rw [hsame.sent, hσ.sent, List.drop_length] at hsent
      cases hsent
    · rw [hcall] at hp
      cases hp
  · refine ⟨fun i uuid items hsent => ?_, fun q hq => ?_⟩
    · obtain ⟨packets, hpackets, hown⟩ := (Handler.run_issues hrun).sent
      rw [hpackets, hσ.sent, List.drop_left] at hsent
      obtain rfl := List.mem_singleton.mp (hown _ hsent)
      refine ⟨p, hcall, ?_⟩
      rw [← Except.ok.inj hrun, PacketManager.processInventoryDBResult,
        Server.sendPacketFunc] at hpackets
      have hsingle := List.append_cancel_left (hpackets : σ.sent ++ _ = σ.sent ++ packets)
      rw [← hsingle, List.mem_singleton] at hsent
      obtain ⟨hindex, hpacket⟩ := Prod.mk.inj hsent
      exact ⟨hindex, (ServerPacket.inventoryInfo.inj hpacket).2⟩
    · rw [hcall] at hq
      obtain ⟨rfl, rfl⟩ := Prod.mk.inj (Option.some.inj hq)
      rw [← Except.ok.inj hrun]
      exact mInventory_processInventoryDBResult _ _ σ

/-- The response to a load holds what was stored for the user of its slot when it is taken. -/
lemma Underway.nextResponse (hs : s.Underway)
    (hid : s.1.server.takeResponseTask.1.taskID = .responseLoadInventory) :
    ∃ db userID, s.2.stores.head? = some db ∧
      s.2.logins s.1.server.takeResponseTask.1.userIndex = some userID ∧
      itemSlotsAt s.1.server.takeResponseTask.1.pData = inventoryAt db userID := by
  have hresponses := hs.responses
  rw [Server.takeResponseTask] at hid ⊢
  cases hq : s.1.server.mResponseTask with
  | nil =>
      rw [hq] at hid
      cases hid
  | cons task rest =>
      rw [hq] at hid hresponses
      obtain ⟨db, dbs, hanswers, -, hstores⟩ := List.forall₂_cons_left_iff.mp hresponses
      obtain ⟨userID, hlogin, hitems⟩ := hanswers hid
      exact ⟨db, userID, by rw [hstores, List.head?_cons], hlogin, hitems⟩

/-- Under the invariant and the condition `ProcessInventoryDBResult` is called with the inventory
of the user of its slot. -/
lemma Underway.owns (hs : s.Underway) (hkeeps : s.KeepsOwner e) {p : RecvPacket}
    (hcall : s.1.call e = some (.processInventoryDBResult, p)) :
    s.Owns e p.clientIndex (itemSlotsAt p.pPacket) := by
  obtain ⟨hpacket, hfind⟩ := call_eq_some_iff.mp hcall
  have hcode : p.packetId = RedisTaskID.responseLoadInventory.code :=
    findHandler_injective hfind rfl
  cases e with
  | clientPacket env => exact absurd hcode (hkeeps.2 p hpacket)
  | systemPacket env =>
      exact (systemPacket_handler hs.system hcall).elim (fun h => by cases h) fun h => by cases h
  | response env =>
      have hid : s.1.server.takeResponseTask.1.taskID = .responseLoadInventory := by
        rw [Server.packetId_responsePacket _ hpacket] at hcode
        exact RedisTaskID.code_injective hcode
      obtain ⟨db, userID, hdb, hlogin, hitems⟩ := hs.nextResponse hid
      simp only [packet, Server.responsePacket, hid] at hpacket
      rw [← Option.some.inj hpacket]
      exact ⟨db, userID, hdb, hlogin, hitems⟩
  | _ => cases hpacket

/-- An inventory that a step changes is written by `ProcessInventoryDBResult`. -/
lemma mInventory_step (h : w.step e = some w') (i : ℕ) :
    (w'.server.mUserObjPool i).mInventory = (w.server.mUserObjPool i).mInventory ∨
      ∃ p, w.call e = some (.processInventoryDBResult, p) ∧ p.clientIndex = i := by
  obtain ⟨σ, hσ, ⟨-, hsame⟩ | ⟨handler, p, env, hcall, hrun⟩⟩ := step_cases h
  · exact .inl ((hsame.mInventory i).trans (hσ.mInventory i))
  · by_cases hhandler : handler = .processInventoryDBResult
    · subst hhandler
      by_cases hi : p.clientIndex = i
      · exact .inr ⟨p, hcall, hi⟩
      · refine .inl ?_
        rw [← Except.ok.inj hrun, ← hσ.mInventory i]
        exact congrArg User.mInventory (Function.update_of_ne (Ne.symm hi) _ _)
    · exact .inl ((Handler.run_mInventory hhandler hrun i).trans (hσ.mInventory i))

/-- Where a step delivers to the owners, an inventory of a user changes to that of the user. -/
theorem Delivers.mInventory (hdelivers : s.Delivers e) (h : s.step e = some s') (i : ℕ) :
    (s'.1.server.mUserObjPool i).mInventory = (s.1.server.mUserObjPool i).mInventory ∨
      s.Owns e i (s'.1.server.mUserObjPool i).mInventory := by
  obtain ⟨w', hw', rfl⟩ := Option.map_eq_some_iff.mp h
  refine (mInventory_step hw' i).imp_right ?_
  rintro ⟨p, hcall, rfl⟩
  exact (hdelivers _ h).2 p hcall

/-- Under the invariant a step under the condition delivers to the owner. -/
lemma Underway.delivers (hs : s.Underway) (hkeeps : s.KeepsOwner e) : s.Delivers e := by
  intro s' h
  obtain ⟨w', hw', rfl⟩ := Option.map_eq_some_iff.mp h
  obtain ⟨hsent, hwritten⟩ := inventory_of_step hw'
  refine ⟨fun i uuid items hmem => ?_, fun p hcall => ?_⟩
  · obtain ⟨p, hcall, rfl, rfl⟩ := hsent i uuid items hmem
    exact hs.owns hkeeps hcall
  · rw [hwritten p hcall]
    exact hs.owns hkeeps hcall

/-- **Inventories are delivered to their owners** in every run whose steps meet the condition. -/
theorem delivers_of_keepsOwner (maxClient : ℕ) (memory : ℕ → View) (store : Store)
    {es : List Event} (h : Runs.Along step KeepsOwner (init maxClient memory store) es) :
    Runs.Along step Delivers (init maxClient memory store) es :=
  Runs.along_of_along (P := Underway) (fun _ _ hs hkeeps => hs.delivers hkeeps)
    (fun _ _ _ hs hkeeps hstep => hs.step hkeeps hstep)
    (underway_init maxClient memory store) h

/-! ### Two runs -/

instance (s : Recorded) (op : Option Lobby.Op) : Decidable (s.OpKeepsOwner op) :=
  match op with
  | some (.connect u) => inferInstanceAs (Decidable ¬s.1.server.Loading u)
  | some (.disconnect u) => inferInstanceAs (Decidable ¬s.1.server.Loading u)
  | some (.login _ _) => inferInstanceAs (Decidable (_ ∧ _ ∧ _))
  | some (.enter _ _) => isTrue trivial
  | some (.leave _) => isTrue trivial
  | none => isTrue trivial

instance (s : Recorded) (env : RedisEnv) (task : RedisTask) :
    Decidable (s.TaskKeepsOwner env task) :=
  inferInstanceAs (Decidable (_ ∧ (_ → ∀ inven,
    inven ∈ (readInventory (env.replies 0) s.1.store (boughtBy task)).toOption → _)))

instance (s : Recorded) : DecidablePred s.InputKeepsOwner
  | .clientPacket _ => inferInstanceAs (Decidable (∀ p, p ∈ s.1.server.clientPacket.1 →
      p.packetId ≠ RedisTaskID.responseLoadInventory.code))
  | .redisTask env => inferInstanceAs
      (Decidable (s.TaskKeepsOwner env s.1.server.takeRequestTask.1))
  | .receive _ _ => isTrue trivial
  | .connect _ => isTrue trivial
  | .close _ => isTrue trivial
  | .systemPacket _ => isTrue trivial
  | .response _ => isTrue trivial
  | .tick _ => isTrue trivial
  | .subscribe _ _ => isTrue trivial

instance (s : Recorded) (e : Event) : Decidable (s.KeepsOwner e) :=
  inferInstanceAs (Decidable (_ ∧ _))

/-- A client connects to slot 0, logs in as `a` and is sent its inventory. -/
def ownInventory : List Event := [.connect 0, .systemPacket {}] ++ Event.login 0 [97] [98]

/-- The inventory of a user in slot 0 reaches its owner. -/
theorem delivers_ownInventory :
    Runs.Along step Delivers (init 3 (fun _ _ => 0) twoUsers) ownInventory :=
  delivers_of_keepsOwner 3 (fun _ _ => 0) twoUsers (by decide +kernel)

/-- A second client connects to slot 1 and logs in as `c`, and its inventory is loaded. -/
def secondLogin : List Event :=
  [.connect 1, .systemPacket {}] ++ Event.request 1 (loginRequestPacket [99] [98]) ++
    [.redisTask default, .response {}, .redisTask { (default : RedisEnv) with rand := fun _ => 1 }]

/-- The first slot. -/
def firstSlot : Fin inventorySize := ⟨0, Nat.succ_pos _⟩

/-- The first item of an inventory that is sent. -/
def firstItem : ServerPacket → Option Int32
  | .inventoryInfo _ items => some (items firstSlot)
  | _ => none

/-- The inventory of `c` is sent to slot 0, where `a` is logged in. -/
theorem inventory_of_another :
    ¬∀ (maxClient : ℕ) (memory : ℕ → View) (store : Store) (es : List Event),
      Runs.Along step Delivers (init maxClient memory store) es := by
  intro h
  have hrun : ((Runs.run step (init 3 (fun _ _ => 0) twoUsers) (ownInventory ++ secondLogin)).bind
      fun s => (s.step (.response {})).map fun s' =>
        (s.2.logins 0, s.2.stores.head?.map fun db => inventoryAt db [97] firstSlot,
          (s'.1.server.sent.drop s.1.server.sent.length).map fun q => (q.1, firstItem q.2))) =
      some (some [97], some 101, [(0, some 102)]) := by decide +kernel
  obtain ⟨s, hs, hmap⟩ := Option.bind_eq_some_iff.mp hrun
  obtain ⟨s', hs', heq⟩ := Option.map_eq_some_iff.mp hmap
  simp only [Prod.mk.injEq] at heq
  obtain ⟨hlogin, hstored, hsent⟩ := heq
  have hdelivers := (h 3 (fun _ _ => 0) twoUsers
    (ownInventory ++ secondLogin ++ Event.response {} :: [])).of_run hs
  obtain ⟨⟨i, packet⟩, hmem, hitem⟩ := List.mem_map.mp (hsent ▸ List.mem_singleton_self _)
  cases packet with
  | inventoryInfo uuid items =>
      obtain ⟨rfl, hitems⟩ := Prod.mk.inj hitem
      obtain ⟨db, userID, hdb, hlogin', rfl⟩ := (hdelivers s' hs').1 _ _ _ hmem
      rw [hlogin, Option.some.injEq] at hlogin'
      rw [hdb, Option.map_some, Option.some.injEq, hlogin', Option.some.inj hitems] at hstored
      exact absurd hstored (by decide)
  | _ => cases (Prod.mk.inj hitem).2

end World.Recorded

end CKGameServer
