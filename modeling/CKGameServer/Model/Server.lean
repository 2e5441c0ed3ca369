import Mathlib.Data.List.FinRange
import Mathlib.Tactic.Simps.Basic
import CKGameServer.Model.User
import CKGameServer.Model.RedisTaskDefine

/-!
`UserManager.h`, `Room.h`, `RoomManager.h`: the state of the server and the two managers.

* `Server`: everything the process thread reads and writes. The functions of the source that
  work on it become functions `Server → Server`, in the namespace of their class; a pointer to a
  user or a room is its index, and `GetUserByConnIdx` is `mUserObjPool`.
* `Server.modUser`, `Server.modRoom`, `Server.sendAll`, `Server.pushTask`: the four ways a
  handler changes the state.
* `UserManager`, `Room`, `RoomManager`: the functions of the three classes.

A loop of the source that only sends is the list of what it sends. `RoomManager::Init` is called
once, with the numbers of `CreateCompent`, so the numbers it stores in the manager and in the
rooms are constants here.
-/

namespace CKGameServer

open Memory

/-! ### The state -/

/-- `startRoomNummber`, which becomes `RoomManager::mBeginRoomNumber`. -/
def mBeginRoomNumber : ℤ := 0

/-- `maxRoomCount`. -/
abbrev mMaxRoomCount : ℕ := 10

def mEndRoomNumber : ℤ := mBeginRoomNumber + mMaxRoomCount

/-- `maxRoomUserCount`, which becomes `Room::mMaxUserCount`. -/
def mMaxUserCount : ℕ := 4

/-- An index of `RoomManager::mRoomList`. -/
abbrev RoomIndex := Fin mMaxRoomCount

/-- `Room`, the members that change. -/
structure Room where
  mUserList : List ℕ := []
  mNpcList : List Npc := []
  mCurrentUserCount : UInt16 := 0

/-- The state of the process thread: `UserManager`, `RoomManager`, the queues of
`PacketManager` and of `RedisManager`, and the packets handed to `SendPacketFunc`, in the order
of the calls. -/
structure Server where
  mMaxUserCnt : ℤ
  mCurrentUserCnt : ℤ := 0
  mUserObjPool : ℕ → User
  mUserIDDictionary : List (Bytes × ℕ) := []
  mRoomList : RoomIndex → Room := fun _ => {}
  mRequestTask : List RedisTask := []
  mResponseTask : List RedisTask := []
  mInComingPacketUserIndex : List ℕ := []
  mSystemPacketQueue : List PacketInfo := []
  sent : List (ℕ × ServerPacket) := []

/-- The memory a handler meets and nothing in the program determines. -/
structure Env where
  /-- What the `k`-th local structure of the handler holds before it is written. -/
  stack : ℕ → View := fun _ _ => 0
  /-- What stands behind the `k`-th string or block on the heap. -/
  heap : ℕ → View := fun _ _ => 0

namespace Server

variable (σ : Server)

/-- An update of the user at an index of the pool. -/
@[simps -fullyApplied]
def modUser (i : ℕ) (f : User → User) : Server :=
  { σ with mUserObjPool := Function.update σ.mUserObjPool i (f (σ.mUserObjPool i)) }

/-- An update of a room. -/
@[simps -fullyApplied]
def modRoom (r : RoomIndex) (f : Room → Room) : Server :=
  { σ with mRoomList := Function.update σ.mRoomList r (f (σ.mRoomList r)) }

/-- Calls of `SendPacketFunc`, one after the other. -/
@[simps -fullyApplied]
def sendAll (packets : List (ℕ × ServerPacket)) : Server :=
  { σ with sent := σ.sent ++ packets }

/-- `SendPacketFunc`. -/
def sendPacketFunc (clientIndex : ℕ) (packet : ServerPacket) : Server :=
  σ.sendAll [(clientIndex, packet)]

/-- `RedisManager::PushTask`. -/
@[simps -fullyApplied]
def pushTask (task : RedisTask) : Server := { σ with mRequestTask := σ.mRequestTask ++ [task] }

end Server

/-! ### `UserManager` -/

namespace UserManager

variable (σ : Server)

/-- `UserManager::FindUserIndexByID`. -/
def findUserIndexByID (userID : Bytes) : ℤ :=
  match σ.mUserIDDictionary.find? fun e => e.1 = userID with
  | some e => e.2
  | none => -1

/-- `UserManager::AddUser`. No function of the server calls it. -/
def addUser (userID : Bytes) (clientIndex : ℕ) : Server :=
  let σ := σ.modUser clientIndex (User.modActor (Actor.setLogin userID))
  if σ.mUserIDDictionary.any fun e => e.1 = userID then σ
  else { σ with mUserIDDictionary := (userID, clientIndex) :: σ.mUserIDDictionary }

/-- `UserManager::DeleteUserInfo`. -/
def deleteUserInfo (user : ℕ) : Server :=
  let userID := (σ.mUserObjPool user).mUserID
  { σ with mUserIDDictionary := σ.mUserIDDictionary.filter fun e => e.1 ≠ userID }.modUser user
    User.clear

end UserManager

/-! ### `Room` -/

/-- `CopyUserID(char*, const Actor&)`: that of the string `GetUserId` returns. -/
def copyUserIDActor (dst : View) (user : Actor) (rest : View) : View :=
  copyUserIDString dst user.mUserID rest

namespace Room

/-- `Room::mRoomNum`. -/
def mRoomNum (r : RoomIndex) : ℤ := r.val + mBeginRoomNumber

/-- `mUserList.push_back` and `++mCurrentUserCount`. -/
def pushUser (user : ℕ) (room : Room) : Room :=
  { room with
    mUserList := room.mUserList ++ [user]
    mCurrentUserCount := room.mCurrentUserCount + 1 }

/-- `mUserList.remove_if` and `--mCurrentUserCount`. -/
def removeUsers (leaves : ℕ → Bool) (room : Room) : Room :=
  { room with
    mUserList := room.mUserList.filter fun u => !leaves u
    mCurrentUserCount := room.mCurrentUserCount - 1 }

variable (env : Env) (r : RoomIndex) (σ : Server)

/-- `Room::SendToAllUser`, the calls it makes. -/
def toAllUser (packet : ServerPacket) (passUserIndex : ℤ) (exceptMe : Bool) :
    List (ℕ × ServerPacket) :=
  ((σ.mRoomList r).mUserList.filter fun u : ℕ => !(exceptMe && (u : ℤ) == passUserIndex)).map
    fun u => (u, packet)

/-- Nobody is left out. -/
lemma toAllUser_false (packet : ServerPacket) (passUserIndex : ℤ) :
    toAllUser r σ packet passUserIndex false =
      (σ.mRoomList r).mUserList.map fun u => (u, packet) := by
  simp [toAllUser]

/-- `Room::SendToAllUser`. -/
def sendToAllUser (packet : ServerPacket) (passUserIndex : ℤ) (exceptMe : Bool) : Server :=
  σ.sendAll (toAllUser r σ packet passUserIndex exceptMe)

/-- The `ROOM_USER_INFO_NTF_PACKET` about an actor. The packets of one loop stand at one place
of the stack, which holds `stack` before. -/
def roomUserInfoNtf (stack heap : View) (uuid : ℤ) (actor : Actor) : ServerPacket :=
  .roomUserInfoNtf uuid (userIDArray (copyUserIDString stack actor.mUserID heap))
    actor.position actor.rotation

/-- `Room::EnterUser`. -/
def enterUser (user : ℕ) : ErrorCode × Server :=
  if mMaxUserCount ≤ (σ.mRoomList r).mCurrentUserCount.toNat then
    (.enterRoomFullUser, σ)
  else
    let σ := σ.modRoom r (pushUser user)
    let σ := σ.modUser user (User.modActor (Actor.enterRoom (mRoomNum r)))
    let users := ((σ.mRoomList r).mUserList.filter (· ≠ user)).map fun u =>
      (user, roomUserInfoNtf (env.stack 0) (env.heap u) u (σ.mUserObjPool u).toActor)
    let npcs := (σ.mRoomList r).mNpcList.map fun npc =>
      (user, roomUserInfoNtf (env.stack 1) (env.heap npc.mIndex.toNat) npc.mIndex npc.toActor)
    (.none, σ.sendAll (users ++ npcs))

/-- `Room::NotifyUserEnter`. -/
def notifyUserEnter (clientIndex : ℤ) (userID : Bytes) : Server :=
  sendToAllUser r σ
    (.roomNewUserNtf clientIndex
      (userIDArray (copyUserIDString (env.stack 2) userID (env.heap clientIndex.toNat))))
    clientIndex false

/-- `Room::CreateNpc`, the npc it makes. -/
def createNpc : Npc :=
  let uuid : ℤ := 10000 + (σ.mRoomList r).mNpcList.length
  { Actor.setLogin (Decimal.toDecimal uuid) {} with mIndex := uuid }

/-- `Room::EnterNpc`. -/
def enterNpc : Server :=
  let newNpc := createNpc r σ
  let newNpc := { newNpc with toActor := newNpc.toActor.enterRoom (mRoomNum r) }
  let σ := σ.modRoom r fun room => { room with mNpcList := room.mNpcList ++ [newNpc] }
  notifyUserEnter env r σ newNpc.mIndex newNpc.mUserID

/-- `Room::LeaveUser`. -/
def leaveUser (leaveUser : ℕ) : Server :=
  let leaveUserId := (σ.mUserObjPool leaveUser).mUserID
  let σ := σ.modRoom r (removeUsers fun u => leaveUserId == (σ.mUserObjPool u).mUserID)
  sendToAllUser r σ
    (.roomLeaveUserNtf leaveUser
      (userIDArray (copyUserIDString (env.stack 3) leaveUserId (env.heap leaveUser))))
    leaveUser true

/-- `Room::NotifyChat`. -/
def notifyChat (clientIndex : ℕ) (userID : Bytes) (msg : View) : Server :=
  sendToAllUser r σ
    (.roomChatNotify (userIDArray (View.ofCString userID (env.heap clientIndex)))
      (msg.read 0 (maxChatMsgSize + 1)))
    clientIndex false

end Room

/-! ### `RoomManager` -/

namespace RoomManager

variable (env : Env) (σ : Server)

/-- `RoomManager::GetRoomByNumber`. -/
def getRoomByNumber (number : ℤ) : Option RoomIndex :=
  if h : number < mBeginRoomNumber ∨ mEndRoomNumber ≤ number then none
  else some ⟨(number - mBeginRoomNumber).toNat, by
    simp only [mEndRoomNumber, mBeginRoomNumber] at h ⊢; omega⟩

/-- `RoomManager::EnterUser`. -/
def enterUser (roomNumber : ℤ) (user : ℕ) : ErrorCode × Server :=
  match getRoomByNumber roomNumber with
  | none => (.roomInvalidIndex, σ)
  | some r => Room.enterUser env r σ user

/-- `RoomManager::LeaveUser`. -/
def leaveUser (roomNumber : ℤ) (user : ℕ) : ErrorCode × Server :=
  match getRoomByNumber roomNumber with
  | none => (.roomInvalidIndex, σ)
  | some r =>
    (.none, Room.leaveUser env r (σ.modUser user (User.modActor (Actor.setDomainState .login))) user)

/-- `RoomManager::SendToAllUser`. -/
def sendToAllUser (packet : ServerPacket) (passUserIndex : ℤ) (exceptMe : Bool) : Server :=
  σ.sendAll ((List.finRange mMaxRoomCount).flatMap fun r =>
    Room.toAllUser r σ packet passUserIndex exceptMe)

/-- The number of a room leads to the room. -/
@[simp] lemma getRoomByNumber_mRoomNum (r : RoomIndex) :
    getRoomByNumber (Room.mRoomNum r) = some r := by
  have hr := r.isLt
  rw [getRoomByNumber, dif_neg]
  · simp [Room.mRoomNum]
  · simp only [Room.mRoomNum, mEndRoomNumber, mBeginRoomNumber]
    omega

/-- A room is found under its own number only. -/
lemma getRoomByNumber_eq_some {number : ℤ} {r : RoomIndex} :
    getRoomByNumber number = some r ↔ number = Room.mRoomNum r := by
  constructor
  · intro h
    rw [getRoomByNumber] at h
    split at h
    · cases h
    · rename_i hrange
      rw [Option.some.injEq] at h
      rw [← h, Room.mRoomNum]
      simp only [not_or, not_lt, not_le] at hrange
      simp only
      omega
  · rintro rfl
    exact getRoomByNumber_mRoomNum r

/-- `-1`, the room of a user who never entered one, is no room. -/
@[simp] lemma getRoomByNumber_neg_one : getRoomByNumber (-1) = none := by decide

end RoomManager

end CKGameServer
