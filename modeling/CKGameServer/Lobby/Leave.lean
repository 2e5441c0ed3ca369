import CKGameServer.Model.Server

/-!
A user leaves a room (`Room::LeaveUser`).

The function takes out of `mUserList` everybody whose id is that of the leaver, and sends
`ROOM_LEAVE_USER_NTF` to those who are left.

* `Room.mUserList_leaveUser`, `Room.sent_leaveUser`: the list it leaves and the packets it sends.
* `Room.LeavesAlone`: the leaver is taken out and nobody else, and the others are told.
* `Room.leavesAlone_iff`: that is so exactly if no other user in the room has the id of the leaver.
* `Room.leaveUser_takes_two`: two users without an id, of whom one leaves.
-/

namespace CKGameServer

namespace Room

section Leave

variable {env : Env} {r : RoomIndex} {σ : Server} {u : ℕ}

/-- Those who are left have another id than the leaver. -/
lemma mUserList_leaveUser :
    ((leaveUser env r σ u).mRoomList r).mUserList = (σ.mRoomList r).mUserList.filter fun v =>
      (σ.mUserObjPool v).mUserID ≠ (σ.mUserObjPool u).mUserID := by
  rw [leaveUser]
  simp only [sendToAllUser, Server.sendAll_mRoomList, Server.modRoom_mRoomList,
    Function.update_self, removeUsers]
  refine List.filter_congr fun v _ => ?_
  rw [beq_eq_decide, ← decide_not]
  exact decide_eq_decide.mpr ne_comm

/-- Everybody who is left is told. -/
lemma sent_leaveUser :
    ∃ userID, (leaveUser env r σ u).sent = σ.sent ++
      ((leaveUser env r σ u).mRoomList r).mUserList.map fun v =>
        (v, .roomLeaveUserNtf u userID) := by
  refine ⟨userIDArray
    (copyUserIDString (env.stack 3) (σ.mUserObjPool u).mUserID (env.heap u)), ?_⟩
  have hnotMe : ∀ v ∈ ((leaveUser env r σ u).mRoomList r).mUserList,
      (!(true && ((v : ℤ) == (u : ℤ)))) = true := by
    intro v hv
    rw [mUserList_leaveUser] at hv
    have hid : (σ.mUserObjPool v).mUserID ≠ (σ.mUserObjPool u).mUserID := by
      simpa using (List.mem_filter.mp hv).2
    have hne : v ≠ u := by
      rintro rfl
      exact hid rfl
    simpa using hne
  rw [← List.filter_eq_self.mpr hnotMe]
  rfl

/-- **What leaving is for**: the leaver is taken out of the list and nobody else, and the others
are told, each once and in their order. -/
structure LeavesAlone (env : Env) (r : RoomIndex) (σ : Server) (u : ℕ) : Prop where
  members : ((leaveUser env r σ u).mRoomList r).mUserList =
    (σ.mRoomList r).mUserList.filter (· ≠ u)
  notified : ∃ userID, (leaveUser env r σ u).sent = σ.sent ++
    ((σ.mRoomList r).mUserList.filter (· ≠ u)).map fun v => (v, .roomLeaveUserNtf u userID)

/-- **The leaver leaves alone** exactly if no other user in the room has its id. -/
theorem leavesAlone_iff (env : Env) (r : RoomIndex) (σ : Server) (u : ℕ) :
    LeavesAlone env r σ u ↔ ∀ v ∈ (σ.mRoomList r).mUserList, v ≠ u →
      (σ.mUserObjPool v).mUserID ≠ (σ.mUserObjPool u).mUserID := by
  constructor
  · intro h v hv hne
    have hleft : v ∈ ((leaveUser env r σ u).mRoomList r).mUserList := by
      rw [h.members]
      exact List.mem_filter.mpr ⟨hv, by simpa using hne⟩
    rw [mUserList_leaveUser] at hleft
    simpa using (List.mem_filter.mp hleft).2
  · intro hids
    have hmembers : ((leaveUser env r σ u).mRoomList r).mUserList =
        (σ.mRoomList r).mUserList.filter (· ≠ u) := by
      rw [mUserList_leaveUser]
      refine List.filter_congr fun v hv => decide_eq_decide.mpr ⟨fun hid hvu => ?_, hids v hv⟩
      exact hid (by rw [hvu])
    obtain ⟨userID, hsent⟩ := @sent_leaveUser env r σ u
    exact ⟨hmembers, userID, by rw [hsent, hmembers]⟩

end Leave

/-- A server with the users 0 and 1 in every room, neither of them with an id. -/
def twoWithoutID : Server where
  mMaxUserCnt := 2
  mUserObjPool := fun _ => { recv := { mPakcetDataBuffer := fun _ => 0 } }
  mRoomList := fun _ => { mUserList := [0, 1], mCurrentUserCount := 2 }

/-- User 0 leaves, user 1 is taken out with it, and nobody is told. -/
theorem leaveUser_takes_two :
    ((leaveUser {} 0 twoWithoutID 0).mRoomList 0).mUserList = [] ∧
      (leaveUser {} 0 twoWithoutID 0).sent = [] ∧ ¬LeavesAlone {} 0 twoWithoutID 0 := by
  have hnobody : ((leaveUser {} 0 twoWithoutID 0).mRoomList 0).mUserList = [] := by
    rw [mUserList_leaveUser]
    rfl
  obtain ⟨userID, hsent⟩ := @sent_leaveUser {} 0 twoWithoutID 0
  refine ⟨hnobody, by rw [hsent, hnobody]; rfl, fun h => ?_⟩
  have hmembers := h.members
  rw [hnobody] at hmembers
  cases hmembers

end Room

end CKGameServer
