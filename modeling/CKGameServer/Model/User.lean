import Mathlib.Data.Fin.Basic
import Mathlib.Logic.Function.Basic
import CKGameServer.Library.Framing
import CKGameServer.Model.Packet

/-!
`Actor.h`, `User.h` and `Npc.h`: a user of the server, and its receive buffer.

* `RecvBuffer`: the buffer members of `User`, with `setPacketData` and `getPacket`. A copy is
  made by `copyMemory`, which answers `none` where it would leave the allocated block.
* `Actor`, `User`: the fields of the two classes that some function reads.

A user is known by its index in the pool. `Actor::mIndex`, which `Init` sets to that index once
and for all, is this index.
-/

namespace CKGameServer

open Memory

/-! ### The receive buffer -/

/-- The buffer members of `User`. `mPakcetDataBuffer` is the memory seen from the first byte of
the block; its first `packetDataBufferSize` bytes are the block. -/
structure RecvBuffer where
  mPakcetDataBuffer : View
  mPakcetDataBufferWPos : ℕ := 0
  mPakcetDataBufferRPos : ℕ := 0

/-- What a receive completion hands over: at most `maxSockRecvBuf` bytes. -/
abbrev Chunk := { pData : Bytes // pData.length ≤ maxSockRecvBuf }

namespace RecvBuffer

/-- `CopyMemory` into the block. The destination may overlap the source, whose bytes are those
before the copy. -/
def copyMemory (mem : View) (dst : ℕ) (src : View) (n : ℕ) : Option View :=
  if dst + n ≤ packetDataBufferSize then some (mem.write dst src n) else none

/-- The bytes written and not yet read: `WPos - RPos` of them. -/
def remainByte (b : RecvBuffer) : ℕ := b.mPakcetDataBufferWPos - b.mPakcetDataBufferRPos

/-- The packet at the read position, as the pointer `GetPacket` returns sees it. -/
def packetPtr (b : RecvBuffer) : View := b.mPakcetDataBuffer.shift b.mPakcetDataBufferRPos

/-- `SetPacketData`, the branch that moves the unread bytes to the front. -/
def compact (b : RecvBuffer) : Option RecvBuffer :=
  let remainDataSize := b.mPakcetDataBufferWPos - b.mPakcetDataBufferRPos
  if 0 < remainDataSize then
    (copyMemory b.mPakcetDataBuffer 0 b.packetPtr remainDataSize).map fun mem =>
      { mPakcetDataBuffer := mem
        mPakcetDataBufferWPos := remainDataSize
        mPakcetDataBufferRPos := 0 }
  else
    some { b with mPakcetDataBufferWPos := 0, mPakcetDataBufferRPos := 0 }

/-- `SetPacketData`, the copy behind the unread bytes. -/
def appendData (b : RecvBuffer) (pData : Bytes) : Option RecvBuffer :=
  (copyMemory b.mPakcetDataBuffer b.mPakcetDataBufferWPos (View.ofBytes pData)
      pData.length).map fun mem =>
    { b with
      mPakcetDataBuffer := mem
      mPakcetDataBufferWPos := b.mPakcetDataBufferWPos + pData.length }

/-- `User::SetPacketData`. -/
def setPacketData (b : RecvBuffer) (pData : Bytes) : Option RecvBuffer :=
  if packetDataBufferSize ≤ b.mPakcetDataBufferWPos + pData.length then
    b.compact.bind fun b => b.appendData pData
  else
    b.appendData pData

/-- `User::GetPacket`. -/
def getPacket (b : RecvBuffer) : PacketInfo × RecvBuffer :=
  if b.remainByte < packetHeaderLength then
    ({}, b)
  else if b.remainByte < packetLengthAt b.packetPtr 0 then
    ({}, b)
  else
    ({ packetId := packetIdAt b.packetPtr 0
       dataSize := packetLengthAt b.packetPtr 0
       pDataPtr := some b.mPakcetDataBufferRPos },
     { b with mPakcetDataBufferRPos :=
         b.mPakcetDataBufferRPos + packetLengthAt b.packetPtr 0 })

/-- The cursors as `User::Clear` leaves them. -/
def clear (b : RecvBuffer) : RecvBuffer :=
  { b with mPakcetDataBufferWPos := 0, mPakcetDataBufferRPos := 0 }

end RecvBuffer

/-! ### Actors and users -/

/-- `Actor::DOMAIN_STATE`. -/
inductive DomainState where
  | none | login | room
  deriving DecidableEq, Repr

/-- `Actor`. -/
structure Actor where
  mRoomIndex : ℤ := -1
  mUserID : Bytes := []
  mCurDomainState : DomainState := .none
  position : Vector3 := ⟨5, 2, 5⟩
  rotation : Quaternion := ⟨0, 0, 0, 0⟩

namespace Actor

/-- `Actor::Clear`. -/
def clear (a : Actor) : Actor :=
  { a with mRoomIndex := -1, mUserID := [], mCurDomainState := .none }

/-- `Actor::SetLogin`. -/
def setLogin (userID : Bytes) (a : Actor) : Actor :=
  { a with mCurDomainState := .login, mUserID := userID }

/-- `Actor::EnterRoom`. -/
def enterRoom (roomIndex : ℤ) (a : Actor) : Actor :=
  { a with mRoomIndex := roomIndex, mCurDomainState := .room }

/-- `Actor::SetDomainState`. -/
def setDomainState (value : DomainState) (a : Actor) : Actor :=
  { a with mCurDomainState := value }

/-- The motion `Actor::UpdateMovement` returns. -/
def movement (dx dy : ℚ) (rotation : Quaternion) : Vector3 :=
  let speed : ℚ := 20
  let dx := dx * if dx ≤ 1 then 1 else 0
  let dy := dy * if dy ≤ 1 then 1 else 0
  let right := quaternionMultiply rotation vector3Right
  let forward := quaternionMultiply rotation vector3Forward
  let mx := vector3Multiply right dx
  let my := vector3Multiply forward dy
  vector3Multiply (vector3Addition mx my) (fixedDeltaTime * speed)

/-- `Actor::UpdateMovement`, its effect on the actor. -/
def updateMovement (dx dy : ℚ) (rotation : Quaternion) (a : Actor) : Actor :=
  { a with
    position := vector3Addition a.position (movement dx dy rotation)
    rotation := rotation }

end Actor

/-- `User`: an actor with an inventory and a receive buffer. -/
structure User extends Actor where
  mInventory : Inventory := fun _ => 0
  recv : RecvBuffer

namespace User

/-- An update of the `Actor` part of a user. -/
def modActor (f : Actor → Actor) (u : User) : User := { u with toActor := f u.toActor }

@[simp] lemma modActor_toActor (f : Actor → Actor) (u : User) :
    (u.modActor f).toActor = f u.toActor := rfl

@[simp] lemma modActor_mInventory (f : Actor → Actor) (u : User) :
    (u.modActor f).mInventory = u.mInventory := rfl

@[simp] lemma modActor_recv (f : Actor → Actor) (u : User) : (u.modActor f).recv = u.recv := rfl

/-- What a call of `SetPacketData` or `GetPacket` leaves of a user. -/
def setRecv (recv : RecvBuffer) (u : User) : User := { u with recv }

@[simp] lemma setRecv_toActor (recv : RecvBuffer) (u : User) :
    (u.setRecv recv).toActor = u.toActor := rfl

@[simp] lemma setRecv_mInventory (recv : RecvBuffer) (u : User) :
    (u.setRecv recv).mInventory = u.mInventory := rfl

@[simp] lemma setRecv_recv (recv : RecvBuffer) (u : User) : (u.setRecv recv).recv = recv := rfl

/-- `User::Clear`. -/
def clear (u : User) : User := { u.modActor Actor.clear with recv := u.recv.clear }

/-- `User::SetInventory`. -/
def setInventory (index : ℕ) (itemID : Int32) (u : User) : User :=
  if h : index < inventorySize then
    { u with mInventory := Function.update u.mInventory ⟨index, h⟩ itemID }
  else u

/-- Filling slots changes the inventory only. -/
lemma foldl_setInventory (itemIDs : Inventory) (is : List (Fin inventorySize)) (u : User) :
    ∃ inven : Inventory, is.foldl (fun u i => u.setInventory i.val (itemIDs i)) u =
      { u with mInventory := inven } := by
  induction is generalizing u with
  | nil => exact ⟨u.mInventory, rfl⟩
  | cons i is ih =>
      obtain ⟨inven, hinven⟩ := ih (u.setInventory i.val (itemIDs i))
      refine ⟨inven, ?_⟩
      rw [List.foldl_cons, hinven, setInventory, dif_pos i.isLt]

/-- A slot holds its item once it is filled. -/
lemma mInventory_foldl_setInventory (itemIDs : Inventory) {is : List (Fin inventorySize)} {u : User}
    {i : Fin inventorySize} (h : u.mInventory i = itemIDs i ∨ i ∈ is) :
    (is.foldl (fun u i => u.setInventory i.val (itemIDs i)) u).mInventory i = itemIDs i := by
  induction is generalizing u with
  | nil => exact h.resolve_right List.not_mem_nil
  | cons j is ih =>
      rw [List.foldl_cons]
      refine ih ?_
      rw [setInventory, dif_pos j.isLt]
      by_cases hij : i = j
      · rw [hij]
        exact .inl (Function.update_self _ _ _)
      · refine h.imp (fun hu => ?_) fun hi => (List.mem_cons.mp hi).resolve_left hij
        exact (Function.update_of_ne hij _ _).trans hu

end User

/-- `Npc`: an actor with an index of its own. -/
structure Npc extends Actor where
  mIndex : ℤ

end CKGameServer
