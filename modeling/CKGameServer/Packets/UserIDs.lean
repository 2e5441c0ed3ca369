import CKGameServer.Model.RedisConn
import CKGameServer.Model.Server

/-!
User ids in packets (`CopyUserID`, `Room::EnterUser`, `Room::NotifyUserEnter`, `Room::LeaveUser`,
`Room::NotifyChat`).

Two of the three overloads copy `sizeof(userID)` bytes, which is the size of a pointer, into an
array nobody has cleared.

* `cstr_userIDArray`: the id in an array that holds it and a zero behind it.
* `ServerPacket.userName`: the id a packet about a user names.
* `UserIDKept`: the id reads back from all three copies and from all four packets.
* `userIDKept_iff`: it does exactly if the id is shorter than a pointer.
-/

namespace CKGameServer

open Memory

/-! ### Reading an id -/

/-- The id in the array of a packet: a C string that ends in it at the latest. -/
def ServerPacket.userName : ServerPacket → Option Bytes
  | roomNewUserNtf _ userID => some (cstr userID)
  | roomUserInfoNtf _ userID _ _ => some (cstr userID)
  | roomLeaveUserNtf _ userID => some (cstr userID)
  | roomChatNotify userID _ => some (cstr userID)
  | _ => none

section Copies

variable {userID : Bytes} {v dst rest : View}

/-- An id and a zero in the array are a C string. -/
lemma cstr_userIDArray (h0 : (0 : UInt8) ∉ userID) (hlength : userID.length ≤ maxUserIdLen)
    (hid : ∀ k (hk : k < userID.length), v k = userID[k]) (hend : v userID.length = 0) :
    cstr (userIDArray v) = userID := by
  have hread : v.read 0 userID.length = userID := by
    refine List.ext_getElem (View.read_length _ _) fun k _ hk => ?_
    rw [View.read_getElem, Nat.zero_add, hid k hk]
  have hsize : maxUserIdLen + 1 = userID.length + (1 + (maxUserIdLen - userID.length)) := by omega
  have htail : v.read userID.length 1 = [0] := by rw [← hend]; rfl
  rw [userIDArray, hsize, View.read_add, View.read_add, hread, Nat.zero_add, htail, cstr,
    List.takeWhile_append_of_pos]
  · simp
  · intro c hc
    simpa using fun hzero : c = 0 => h0 (hzero ▸ hc)

lemma ofCString_apply_lt {k : ℕ} (hk : k < userID.length) :
    View.ofCString userID rest k = userID[k] := by
  rw [View.ofCString, if_pos hk, List.getD_eq_getElem _ _ hk]

lemma ofCString_apply_length : View.ofCString userID rest userID.length = 0 := by
  rw [View.ofCString, if_neg (lt_irrefl _), if_pos rfl]

/-- **A copy of `n` bytes** of a string shorter than `n` reads back, whatever stands behind it. -/
lemma cstr_userIDArray_copy {n : ℕ} (h0 : (0 : UInt8) ∉ userID)
    (hlength : userID.length ≤ maxUserIdLen) (hn : userID.length < n) :
    cstr (userIDArray ((View.ofCString userID rest).append dst n)) = userID :=
  cstr_userIDArray h0 hlength
    (fun _ hk => (View.append_apply_lt (hk.trans hn)).trans (ofCString_apply_lt hk))
    ((View.append_apply_lt hn).trans ofCString_apply_length)

/-- An array without a zero is longer than any id. -/
lemma cstr_userIDArray_ne (hzero : ∀ k, v k ≠ 0)
    (hlength : userID.length ≤ maxUserIdLen) : cstr (userIDArray v) ≠ userID := by
  intro h
  have hall : cstr (userIDArray v) = userIDArray v := by
    refine cstr_eq_self fun hmem => ?_
    obtain ⟨k, -, hk⟩ := List.mem_map.mp hmem
    exact hzero (0 + k) hk
  have hsize : userID.length = maxUserIdLen + 1 := by
    rw [← h, hall, userIDArray, View.read_length]
  omega

/-- **The copy of eight bytes** leaves an id of eight or more open, if no zero follows in the
array. -/
lemma cstr_copyUserIDString_ne (h0 : (0 : UInt8) ∉ userID)
    (hlength : userID.length ≤ maxUserIdLen) (hlong : 8 ≤ userID.length) (rest : View) :
    cstr (userIDArray (copyUserIDString (fun _ => 120) userID rest)) ≠ userID := by
  refine cstr_userIDArray_ne (fun k => ?_) hlength
  rw [copyUserIDString, View.append]
  split
  · rename_i hk
    rw [ofCString_apply_lt (hk.trans_le hlong)]
    exact fun hzero => h0 (hzero ▸ List.getElem_mem _)
  · exact (by decide : (120 : UInt8) ≠ 0)

end Copies

/-! ### Packets -/

/-- What is sent between two states is about the user with this id. -/
def Server.Names (σ τ : Server) (userID : Bytes) : Prop :=
  ∃ packets, τ.sent = σ.sent ++ packets ∧ ∀ p ∈ packets, p.2.userName = some userID

/-- The id reads back from the array after each overload of `CopyUserID`, whatever it held before
and whatever stands behind the string, and from the packets that are about the user. -/
structure UserIDKept (userID : Bytes) : Prop where
  actor : ∀ (dst rest : View) (user : Actor), user.mUserID = userID →
    cstr (userIDArray (copyUserIDActor dst user rest)) = userID
  string : ∀ dst rest : View, cstr (userIDArray (copyUserIDString dst userID rest)) = userID
  -- this overload writes the whole array; `behind` is the memory behind it
  chars : ∀ rest behind : View,
    cstr (userIDArray (copyUserIDChars (View.ofCString userID rest) behind)) = userID
  userInfo : ∀ (stack heap : View) (uuid : ℤ) (user : Actor), user.mUserID = userID →
    (Room.roomUserInfoNtf stack heap uuid user).userName = some userID
  newUser : ∀ env r (σ : Server) clientIndex,
    σ.Names (Room.notifyUserEnter env r σ clientIndex userID) userID
  leaveUser : ∀ env r (σ : Server) user, (σ.mUserObjPool user).mUserID = userID →
    σ.Names (Room.leaveUser env r σ user) userID
  chat : ∀ env r (σ : Server) clientIndex msg,
    σ.Names (Room.notifyChat env r σ clientIndex userID msg) userID

/-- A packet for everybody in a room names who it names. -/
lemma Server.names_toAllUser {σ τ ρ : Server} {r : RoomIndex} {packet : ServerPacket}
    {passUserIndex : ℤ} {exceptMe : Bool} {userID : Bytes}
    (hsent : τ.sent = σ.sent ++ Room.toAllUser r ρ packet passUserIndex exceptMe)
    (hname : packet.userName = some userID) : σ.Names τ userID := by
  refine ⟨_, hsent, fun p hp => ?_⟩
  obtain ⟨u, -, rfl⟩ := List.mem_map.mp hp
  exact hname

/-- A short id is kept. -/
lemma userIDKept_of_length_lt {userID : Bytes} (h0 : (0 : UInt8) ∉ userID)
    (hshort : userID.length < 8) : UserIDKept userID := by
  have hlength : userID.length ≤ maxUserIdLen := hshort.le.trans (by decide)
  have hstring : ∀ dst rest : View,
      cstr (userIDArray (copyUserIDString dst userID rest)) = userID :=
    fun dst rest => cstr_userIDArray_copy h0 hlength hshort
  refine ⟨?_, hstring, ?_, ?_, ?_, ?_, ?_⟩
  · rintro dst rest user rfl
    exact hstring dst rest
  · exact fun rest behind => cstr_userIDArray_copy h0 hlength (Nat.lt_succ_of_le hlength)
  · rintro stack heap uuid user rfl
    exact congrArg some (hstring stack heap)
  · exact fun env r σ clientIndex => Server.names_toAllUser rfl (congrArg some (hstring _ _))
  · rintro env r σ user rfl
    exact Server.names_toAllUser rfl (congrArg some (hstring _ _))
  · intro env r σ clientIndex msg
    exact Server.names_toAllUser rfl (congrArg some (cstr_userIDArray h0 hlength
      (fun _ hk => ofCString_apply_lt hk) ofCString_apply_length))

/-- **User ids survive the copy into packets** exactly if they are shorter than a pointer. -/
theorem userIDKept_iff (userID : Bytes) (h0 : (0 : UInt8) ∉ userID)
    (hlength : userID.length ≤ maxUserIdLen) : UserIDKept userID ↔ userID.length ≤ 7 := by
  constructor
  · intro hkept
    by_contra hlong
    exact cstr_copyUserIDString_ne h0 hlength (by omega) (fun _ => 0) (hkept.string _ _)
  · exact fun hshort => userIDKept_of_length_lt h0 (by omega)

/-- `abcdefg` is kept. -/
theorem userIDKept_seven : UserIDKept [97, 98, 99, 100, 101, 102, 103] :=
  (userIDKept_iff [97, 98, 99, 100, 101, 102, 103] (by decide) (by decide)).mpr (by decide)

/-- `abcdefgh` is followed by what stood in the array; in a `ROOM_CHAT_NOTIFY` it is not. -/
theorem not_userIDKept_eight :
    cstr (userIDArray (copyUserIDString (fun _ => 120) [97, 98, 99, 100, 101, 102, 103, 104]
        fun _ => 0)) =
      [97, 98, 99, 100, 101, 102, 103, 104] ++ List.replicate 25 120 ∧
    cstr (userIDArray (copyUserIDChars (View.ofCString [97, 98, 99, 100, 101, 102, 103, 104]
        fun _ => 0) fun _ => 120)) = [97, 98, 99, 100, 101, 102, 103, 104] ∧
    ¬UserIDKept [97, 98, 99, 100, 101, 102, 103, 104] := by
  refine ⟨by decide, by decide, fun hkept => ?_⟩
  exact cstr_copyUserIDString_ne (by decide) (by decide) (by decide) (fun _ => 0)
    (hkept.string _ _)

end CKGameServer
