import CKGameServer.Library.Runs
import CKGameServer.Model.Effects
import CKGameServer.Model.RedisManager

/-!
`GameServer.h` and the loops of the threads: the whole server as a transition system.

* `World`: the state of the server and the database.
* `Event`: what happens next, which thread it is that moves. The network threads call
  `OnReceive`, `OnConnect` and `OnClose`; the process thread takes a client packet, a system
  packet or a response, or its clock ticks; the Redis thread takes a task; the subscriber hears
  a message.
* `World.step`: the step of an event. It is `none` where the code ends in an uncaught exception
  or leaves an array.
* `World.call`: the handler an event runs, with its arguments.
* `World.step_cases`: a step leaves users, rooms and sent packets alone except for the handler
  it runs.

The three parts of one pass of `ProcessPacket` are steps of their own, in any order.
-/

namespace CKGameServer

open Memory

/-! ### The queues of the process thread -/

/-- The arguments of a call of `ProcessRecvPacket`. -/
structure RecvPacket where
  clientIndex : ℕ
  packetId : ℕ
  packetSize : ℕ
  pPacket : View

namespace Server

variable (σ : Server)

/-- `PacketManager::ReceivePacketData`. -/
def receivePacketData (clientIndex : ℕ) (pData : Bytes) : Option Server :=
  ((σ.mUserObjPool clientIndex).recv.setPacketData pData).map fun recv =>
    { σ.modUser clientIndex (User.setRecv recv) with
      mInComingPacketUserIndex := σ.mInComingPacketUserIndex ++ [clientIndex] }

/-- `PacketManager::DequePacketData`. -/
def dequePacketData : PacketInfo × Server :=
  match σ.mInComingPacketUserIndex with
  | [] => ({}, σ)
  | userIndex :: rest =>
    let (packetData, recv) := (σ.mUserObjPool userIndex).recv.getPacket
    ({ packetData with clientIndex := userIndex },
      { σ.modUser userIndex (User.setRecv recv) with mInComingPacketUserIndex := rest })

/-- `PacketManager::PushSystemPacket`. -/
def pushSystemPacket (packet : PacketInfo) : Server :=
  { σ with mSystemPacketQueue := σ.mSystemPacketQueue ++ [packet] }

/-- `PacketManager::DequeSystemPacketData`. -/
def dequeSystemPacketData : PacketInfo × Server :=
  match σ.mSystemPacketQueue with
  | [] => ({}, σ)
  | packetData :: rest => (packetData, { σ with mSystemPacketQueue := rest })

/-- `RedisManager::TakeResponseTask`. -/
def takeResponseTask : RedisTask × Server :=
  match σ.mResponseTask with
  | [] => ({}, σ)
  | task :: rest => (task, { σ with mResponseTask := rest })

/-- `RedisManager::TakeRequestTask`. -/
def takeRequestTask : RedisTask × Server :=
  match σ.mRequestTask with
  | [] => ({}, σ)
  | task :: rest => (task, { σ with mRequestTask := rest })

/-- What a packet pointer sees. -/
def packetView (packet : PacketInfo) : View :=
  match packet.pDataPtr with
  | none => fun _ => 0
  | some off => (σ.mUserObjPool packet.clientIndex).recv.mPakcetDataBuffer.shift off

/-- The arguments a packet is dispatched with. -/
def recvPacket (packet : PacketInfo) : RecvPacket :=
  { clientIndex := packet.clientIndex, packetId := packet.packetId
    packetSize := packet.dataSize, pPacket := σ.packetView packet }

/-- `ProcessPacket`, the packet of a client it dispatches. -/
def clientPacket : Option RecvPacket × Server :=
  let (packetData, σ) := σ.dequePacketData
  (if PacketId.sysEnd.code < packetData.packetId then some (σ.recvPacket packetData) else none, σ)

/-- `ProcessPacket`, the system packet it dispatches. -/
def systemPacket : Option RecvPacket × Server :=
  let (packetData, σ) := σ.dequeSystemPacketData
  (if packetData.packetId ≠ 0 then some (σ.recvPacket packetData) else none, σ)

/-- `ProcessPacket`, the response it dispatches. -/
def responsePacket : Option RecvPacket × Server :=
  let (task, σ) := σ.takeResponseTask
  (if task.taskID ≠ .invalid then
      some { clientIndex := task.userIndex, packetId := task.taskID.code
             packetSize := task.dataSize, pPacket := task.pData }
    else none, σ)

/-- The dispatch of what a queue gave. -/
def dispatch (env : Env) : Option RecvPacket × Server → Except Fault Server
  | (none, σ) => .ok σ
  | (some p, σ) => processRecvPacket env p.clientIndex p.packetId p.packetSize p.pPacket σ

/-- The response task of `SubscribeThread`. -/
def subscribeTask (env : Env) (message : Bytes) : RedisTask :=
  RedisTask.make 0 .responseNotice redisNoticeSize
    (redisNotice (View.ofCString PacketManager.gmUserID (env.heap 0))
      (View.ofCString message (env.heap 1)))
    (env.heap 2)

end Server

/-! ### The system -/

/-- The server and the database behind it. -/
structure World where
  server : Server
  store : Store

/-- What happens next. -/
inductive Event where
  | receive (clientIndex : ℕ) (pData : Chunk)
  | connect (clientIndex : ℕ)
  | close (clientIndex : ℕ)
  | clientPacket (env : Env)
  | systemPacket (env : Env)
  | response (env : Env)
  | tick (env : Env)
  | redisTask (env : RedisEnv)
  | subscribe (env : Env) (message : Bytes)

namespace World

/-- The initial state: `UserManager::Init` and `RoomManager::Init` have run. What the blocks of
the receive buffers hold is `memory`. -/
def init (maxClient : ℕ) (memory : ℕ → View) (store : Store) : World where
  server :=
    { mMaxUserCnt := maxClient
      mUserObjPool := fun i => { recv := { mPakcetDataBuffer := memory i } } }
  store := store

/-- What the Redis thread does with the outcome of a task. -/
def commit (σ : Server) (out : RedisOutcome) : World where
  server :=
    { σ with
      mResponseTask := σ.mResponseTask ++ out.responses
      mRequestTask := σ.mRequestTask ++ out.requests }
  store := out.store

/-- `GameServer::OnConnect`. -/
def onConnect (clientIndex : ℕ) : PacketInfo :=
  { clientIndex, packetId := PacketId.sysUserConnect.code }

/-- `GameServer::OnClose`. -/
def onClose (clientIndex : ℕ) : PacketInfo :=
  { clientIndex, packetId := PacketId.sysUserDisconnect.code }

/-- One step of the system. -/
def step (w : World) : Event → Option World
  | .receive clientIndex pData =>
    (w.server.receivePacketData clientIndex pData.val).map fun σ => { w with server := σ }
  | .connect clientIndex =>
    some { w with server := w.server.pushSystemPacket (onConnect clientIndex) }
  | .close clientIndex =>
    some { w with server := w.server.pushSystemPacket (onClose clientIndex) }
  | .clientPacket env =>
    (Server.dispatch env w.server.clientPacket).toOption.map fun σ => { w with server := σ }
  | .systemPacket env =>
    (Server.dispatch env w.server.systemPacket).toOption.map fun σ => { w with server := σ }
  | .response env =>
    (Server.dispatch env w.server.responsePacket).toOption.map fun σ => { w with server := σ }
  | .tick env => some { w with server := PacketManager.tick env w.server }
  | .redisTask env =>
    let (task, σ) := w.server.takeRequestTask
    (taskProcess env w.store task).toOption.map fun out => commit σ out
  | .subscribe env message =>
    some { w with server :=
      { w.server with
        mResponseTask := w.server.mResponseTask ++ [Server.subscribeTask env message] } }

/-! ### What a step does to users and rooms -/

/-- The packet an event dispatches. -/
def packet (w : World) : Event → Option RecvPacket
  | .clientPacket _ => w.server.clientPacket.1
  | .systemPacket _ => w.server.systemPacket.1
  | .response _ => w.server.responsePacket.1
  | _ => none

/-- The handler an event runs, and the packet it runs on. -/
def call (w : World) (e : Event) : Option (Handler × RecvPacket) :=
  (w.packet e).bind fun p => (findHandler p.packetId).map fun handler => (handler, p)

lemma call_eq_some_iff {w : World} {e : Event} {handler : Handler} {p : RecvPacket} :
    w.call e = some (handler, p) ↔
      w.packet e = some p ∧ findHandler p.packetId = some handler := by
  constructor
  · intro h
    obtain ⟨q, hpacket, hhandler⟩ := Option.bind_eq_some_iff.mp h
    obtain ⟨handler', hfind, heq⟩ := Option.map_eq_some_iff.mp hhandler
    obtain ⟨rfl, rfl⟩ := Prod.mk.inj heq
    exact ⟨hpacket, hfind⟩
  · rintro ⟨hpacket, hfind⟩
    rw [call, hpacket, Option.bind_some, hfind, Option.map_some]

end World

/-- Two states of the server that differ at most in receive buffers, queues of packets and
queues of tasks. -/
structure Server.SameUsers (σ τ : Server) : Prop where
  toActor : ∀ i, (τ.mUserObjPool i).toActor = (σ.mUserObjPool i).toActor
  mInventory : ∀ i, (τ.mUserObjPool i).mInventory = (σ.mUserObjPool i).mInventory
  mUserIDDictionary : τ.mUserIDDictionary = σ.mUserIDDictionary
  mRoomList : τ.mRoomList = σ.mRoomList
  sent : τ.sent = σ.sent

namespace Server

lemma SameUsers.refl (σ : Server) : σ.SameUsers σ := ⟨fun _ => rfl, fun _ => rfl, rfl, rfl, rfl⟩

/-- The buffer functions leave the rest of their user alone. -/
lemma sameUsers_setRecv (σ : Server) (i : ℕ) (recv : RecvBuffer) :
    σ.SameUsers (σ.modUser i (User.setRecv recv)) where
  toActor j := by
    by_cases hj : j = i
    · subst hj; simp
    · simp [hj]
  mInventory j := by
    by_cases hj : j = i
    · subst hj; simp
    · simp [hj]
  mUserIDDictionary := rfl
  mRoomList := rfl
  sent := rfl

lemma sameUsers_dequePacketData (σ : Server) : σ.SameUsers σ.dequePacketData.2 := by
  rw [dequePacketData]
  split
  · exact .refl σ
  · rename_i i rest _
    obtain ⟨h1, h2, -, -, -⟩ := σ.sameUsers_setRecv i (σ.mUserObjPool i).recv.getPacket.2
    exact ⟨h1, h2, rfl, rfl, rfl⟩

lemma sameUsers_dequeSystemPacketData (σ : Server) : σ.SameUsers σ.dequeSystemPacketData.2 := by
  rw [dequeSystemPacketData]
  split <;> exact ⟨fun _ => rfl, fun _ => rfl, rfl, rfl, rfl⟩

lemma sameUsers_takeResponseTask (σ : Server) : σ.SameUsers σ.takeResponseTask.2 := by
  rw [takeResponseTask]
  split <;> exact ⟨fun _ => rfl, fun _ => rfl, rfl, rfl, rfl⟩

lemma sameUsers_takeRequestTask (σ : Server) : σ.SameUsers σ.takeRequestTask.2 := by
  rw [takeRequestTask]
  split <;> exact ⟨fun _ => rfl, fun _ => rfl, rfl, rfl, rfl⟩

/-- A dispatch runs the handler of its packet, if there is one. -/
lemma dispatch_cases {env : Env} {p : Option RecvPacket} {σ τ : Server}
    (h : dispatch env (p, σ) = .ok τ) :
    (p.bind fun p => (findHandler p.packetId).map fun handler => (handler, p)) = none ∧ τ = σ ∨
    ∃ handler q, (p.bind fun p => (findHandler p.packetId).map fun handler => (handler, p)) =
        some (handler, q) ∧
      handler.run env q.clientIndex q.packetSize q.pPacket σ = .ok τ := by
  cases p with
  | none => exact .inl ⟨rfl, (Except.ok.inj h).symm⟩
  | some p =>
      rw [dispatch, processRecvPacket] at h
      cases hf : findHandler p.packetId with
      | none =>
          rw [hf] at h
          exact .inl ⟨by simp [hf], (Except.ok.inj h).symm⟩
      | some handler =>
          rw [hf] at h
          exact .inr ⟨handler, p, by simp [hf], h⟩

end Server

namespace World

/-- Up to receive buffers and queues nothing happens from `w` to `w'`, or what the handler does
that the event calls. -/
def StepsTo (w : World) (e : Event) (w' : World) : Prop :=
  ∃ σ, w.server.SameUsers σ ∧
    (w.call e = none ∧ σ.SameUsers w'.server ∨
      ∃ handler p env, w.call e = some (handler, p) ∧
        handler.run env p.clientIndex p.packetSize p.pPacket σ = .ok w'.server)

variable {w w' : World} {e : Event}

/-- An event of another thread touches buffers and queues only. -/
lemma stepsTo_of_sameUsers (hcall : w.call e = none) (hsame : w.server.SameUsers w'.server) :
    w.StepsTo e w' := ⟨w.server, .refl _, .inl ⟨hcall, hsame⟩⟩

/-- The process thread takes a packet from a queue and runs its handler. -/
lemma stepsTo_of_dispatch {env : Env} {p : Option RecvPacket} {σ : Server}
    (h : (Server.dispatch env (p, σ)).toOption.map (fun τ => { w with server := τ }) = some w')
    (hσ : w.server.SameUsers σ) (hp : w.packet e = p) : w.StepsTo e w' := by
  cases hd : Server.dispatch env (p, σ) with
  | error f => rw [hd] at h; cases h
  | ok τ =>
      rw [hd] at h
      obtain rfl := Option.some.inj h
      refine ⟨σ, hσ, ?_⟩
      rw [call, hp]
      rcases Server.dispatch_cases hd with ⟨hnone, rfl⟩ | ⟨handler, q, hsome, hrun⟩
      · exact .inl ⟨hnone, .refl _⟩
      · exact .inr ⟨handler, q, env, hsome, hrun⟩

/-- A chunk that comes in is written to the buffer of its user, and the user is queued. -/
lemma exists_receive {i : ℕ} {pData : Chunk} (h : w.step (.receive i pData) = some w') :
    ∃ recv, (w.server.mUserObjPool i).recv.setPacketData pData.val = some recv ∧
      w' = { w with server :=
        { w.server.modUser i (User.setRecv recv) with
          mInComingPacketUserIndex := w.server.mInComingPacketUserIndex ++ [i] } } := by
  obtain ⟨σ, hσ, rfl⟩ := Option.map_eq_some_iff.mp h
  obtain ⟨recv, hrecv, rfl⟩ := Option.map_eq_some_iff.mp hσ
  exact ⟨recv, hrecv, rfl⟩

/-- **What a step can do.** -/
theorem step_cases (h : w.step e = some w') : w.StepsTo e w' := by
  cases e with
  | receive i pData =>
      obtain ⟨recv, -, rfl⟩ := exists_receive h
      obtain ⟨h1, h2, -, -, -⟩ := w.server.sameUsers_setRecv i recv
      exact stepsTo_of_sameUsers rfl ⟨h1, h2, rfl, rfl, rfl⟩
  | connect i =>
      obtain rfl := Option.some.inj h
      exact stepsTo_of_sameUsers rfl ⟨fun _ => rfl, fun _ => rfl, rfl, rfl, rfl⟩
  | close i =>
      obtain rfl := Option.some.inj h
      exact stepsTo_of_sameUsers rfl ⟨fun _ => rfl, fun _ => rfl, rfl, rfl, rfl⟩
  | clientPacket env => exact stepsTo_of_dispatch h w.server.sameUsers_dequePacketData rfl
  | systemPacket env => exact stepsTo_of_dispatch h w.server.sameUsers_dequeSystemPacketData rfl
  | response env => exact stepsTo_of_dispatch h w.server.sameUsers_takeResponseTask rfl
  | tick env =>
      obtain rfl := Option.some.inj h
      exact stepsTo_of_sameUsers rfl ⟨fun _ => rfl, fun _ => rfl, rfl, rfl, rfl⟩
  | redisTask env =>
      obtain ⟨out, -, rfl⟩ := Option.map_eq_some_iff.mp h
      obtain ⟨h1, h2, h3, h4, h5⟩ := w.server.sameUsers_takeRequestTask
      exact stepsTo_of_sameUsers rfl ⟨h1, h2, h3, h4, h5⟩
  | subscribe env message =>
      obtain rfl := Option.some.inj h
      exact stepsTo_of_sameUsers rfl ⟨fun _ => rfl, fun _ => rfl, rfl, rfl, rfl⟩

/-- A step is taken where the handler it calls returns. -/
lemma exists_step_of_run {handler : Handler} {p : RecvPacket} (hcall : w.call e = some (handler, p))
    (hok : ∀ env σ, w.server.SameUsers σ →
      ∃ τ, handler.run env p.clientIndex p.packetSize p.pPacket σ = .ok τ) :
    ∃ w', w.step e = some w' := by
  obtain ⟨hpacket, hfind⟩ := call_eq_some_iff.mp hcall
  have hdispatch : ∀ env σ, w.server.SameUsers σ → ∃ w',
      (Server.dispatch env (some p, σ)).toOption.map
        (fun τ => ({ w with server := τ } : World)) = some w' := fun env σ hσ => by
    obtain ⟨τ, hτ⟩ := hok env σ hσ
    refine ⟨{ w with server := τ }, ?_⟩
    rw [Server.dispatch, processRecvPacket, hfind]
    simp only [hτ, Except.toOption, Option.map_some]
  cases e with
  | clientPacket env =>
      have := hdispatch env _ w.server.sameUsers_dequePacketData
      rwa [← show w.server.clientPacket.1 = some p from hpacket] at this
  | systemPacket env =>
      have := hdispatch env _ w.server.sameUsers_dequeSystemPacketData
      rwa [← show w.server.systemPacket.1 = some p from hpacket] at this
  | response env =>
      have := hdispatch env _ w.server.sameUsers_takeResponseTask
      rwa [← show w.server.responsePacket.1 = some p from hpacket] at this
  | _ => cases hpacket

end World

end CKGameServer
