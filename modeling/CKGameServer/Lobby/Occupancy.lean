import CKGameServer.Lobby.Refinement
import CKGameServer.Model.Client

/-!
The counters of the rooms (`Room::EnterUser`, `Room::LeaveUser`).

* `Lobby.Counted`: the counter of a room is the length of its list and at most its maximum.
* `Lobby.counted_removeFrom_iff`: a leave takes one off the counter, and from the list all
  members with the id of the leaver; the two agree exactly if there is one such member.
* `World.roomsCounted_iff`: over a run of the system the counters are right exactly if every
  leave and every disconnect from a room finds exactly one such member.
* `World.counter_wraps`: a client that enters once and leaves twice wraps the counter.
-/

namespace CKGameServer

namespace Lobby

/-- The counter of every room is the length of its list, and at most the maximum. -/
def Counted (L : Lobby) : Prop :=
  ∀ r, (L.count r).toNat = (L.members r).length ∧ (L.count r).toNat ≤ mMaxUserCount

/-- One member of the room, and no other, has the id of `u`. -/
def OneWithID (L : Lobby) (u : ℕ) (r : RoomIndex) : Prop :=
  ((L.members r).filter fun v => L.SameID u v).length = 1

/-- A user that is taken out of the room it has is found there once. -/
def LeavesOnce (L : Lobby) : Op → Prop
  | .leave u => ∀ r, (L.session u).room = some r → L.OneWithID u r
  | .disconnect u => (L.session u).state = .room → ∀ r, (L.session u).room = some r →
      L.OneWithID u r
  | _ => True

variable {L : Lobby}

@[simp] lemma counted_setSession {u : ℕ} {s : Session} :
    (L.setSession u s).Counted ↔ L.Counted := Iff.rfl

lemma Counted.addTo (h : L.Counted) {u : ℕ} {r : RoomIndex} (hplace : L.HasPlace r) :
    (L.addTo u r).Counted := fun r' => by
  by_cases hr : r' = r
  · subst hr
    obtain ⟨hlen, -⟩ := h r'
    rw [HasPlace, mMaxUserCount] at hplace
    simp only [addTo_count, addTo_members, Function.update_self, List.length_append,
      List.length_singleton, UInt16.toNat_add, mMaxUserCount]
    have hone : (1 : UInt16).toNat = 1 := rfl
    omega
  · simpa [hr] using h r'

/-- **A leave keeps the counter right exactly if** one member of the room has the leaver's id. -/
lemma counted_removeFrom_iff (h : L.Counted) {u : ℕ} {r : RoomIndex} :
    (L.removeFrom u r).Counted ↔ L.OneWithID u r := by
  obtain ⟨hlen, hmax⟩ := h r
  have hsplit : ((L.members r).filter fun v => L.SameID u v).length +
      ((L.members r).filter fun v => !L.SameID u v).length = (L.members r).length :=
    (List.length_eq_length_filter_add fun v => decide (L.SameID u v)).symm
  have hone : (1 : UInt16).toNat = 1 := rfl
  have hsub : (L.count r - 1).toNat = (2 ^ 16 - 1 + (L.count r).toNat) % 2 ^ 16 := by
    rw [UInt16.toNat_sub, hone]
  rw [mMaxUserCount] at hmax
  rw [OneWithID]
  constructor
  · intro h'
    have hcount := (h' r).1
    simp only [removeFrom_count, removeFrom_members, Function.update_self] at hcount
    omega
  · intro hk r'
    by_cases hr : r' = r
    · subst hr
      simp only [removeFrom_count, removeFrom_members, Function.update_self, mMaxUserCount]
      omega
    · simpa [hr] using h r'

lemma Counted.leaveRoom_iff (h : L.Counted) {u : ℕ} :
    (L.leaveRoom u).Counted ↔ ∀ r, (L.session u).room = some r → L.OneWithID u r := by
  cases hr : (L.session u).room with
  | none => simpa [leaveRoom_of_none hr] using h
  | some r => simp [leaveRoom_of_some hr, counted_removeFrom_iff h]

/-- What each operation does to the counters. -/
lemma counted_apply_iff (hrooms : L.WellRoomed) (h : L.Counted) (op : Op) :
    (L.apply op).Counted ↔ L.LeavesOnce op := by
  cases op with
  | connect u => exact iff_of_true h trivial
  | login u userID => exact iff_of_true h trivial
  | enter u r =>
      rw [Lobby.apply]
      split
      · rename_i hplace
        exact iff_of_true (h.addTo hplace) trivial
      · exact iff_of_true h trivial
  | leave u => exact h.leaveRoom_iff
  | disconnect u =>
      rw [LeavesOnce]
      cases hstate : (L.session u).state with
      | none => simpa [apply_disconnect_of_none hstate] using h
      | login => simpa [apply_disconnect_of_login hstate] using h
      | room =>
          obtain ⟨r, hr⟩ := Option.isSome_iff_exists.mp ((hrooms u).2 hstate)
          rw [apply_disconnect_of_room hstate hr, ← leaveRoom_of_some hr]
          simpa using h.leaveRoom_iff

end Lobby

namespace World

/-- The occupancy of the rooms: `mCurrentUserCount` is the length of `mUserList` and at most
`mMaxUserCount`. -/
def RoomsCounted (w : World) : Prop :=
  ∀ r, (w.server.mRoomList r).mCurrentUserCount.toNat = (w.server.mRoomList r).mUserList.length ∧
    (w.server.mRoomList r).mCurrentUserCount.toNat ≤ mMaxUserCount

/-- **The counters of the rooms.** In any run from the start of the server, they are right in
every state exactly if every leave, and every disconnect of a user in a room, finds exactly one
member of the room with the id of the leaver. -/
theorem roomsCounted_iff (maxClient : ℕ) (memory : ℕ → Memory.View) (store : Store)
    (es : List Event) :
    Runs.Always step RoomsCounted (init maxClient memory store) es ↔
      Runs.Along step (fun w e => ∀ op, w.op e = some op → w.server.lobby.LeavesOnce op)
        (init maxClient memory store) es :=
  always_lobby_iff (I := Lobby.WellRoomed) (P := Lobby.Counted)
    (fun _ op h => h.apply op) (fun _ op hrooms h => Lobby.counted_apply_iff hrooms h op) es
    Lobby.wellRoomed_empty fun _ => ⟨rfl, Nat.zero_le _⟩

/-- `a` logs in, enters room 0 and leaves it twice. -/
def leaveTwice : List Event :=
  [.connect 0, .systemPacket {}] ++ Event.login 0 [97] [98] ++
    Event.request 0 (roomEnterRequestPacket 0) ++ Event.request 0 roomLeaveRequestPacket ++
    Event.request 0 roomLeaveRequestPacket

/-- The second leave takes the counter of the empty room below zero. -/
theorem counter_wraps :
    ¬∀ (maxClient : ℕ) (memory : ℕ → Memory.View) (store : Store) (es : List Event),
      Runs.Always step RoomsCounted (init maxClient memory store) es := by
  intro h
  have hrun : (Runs.run step (init 3 (fun _ _ => 0) twoUsers) leaveTwice).map
      (fun w => ((w.server.mRoomList 0).mCurrentUserCount.toNat,
        (w.server.mRoomList 0).mUserList)) = some (65535, []) := by decide +kernel
  obtain ⟨w, hw, hcount⟩ := Option.map_eq_some_iff.mp hrun
  have hcounted := ((h 3 (fun _ _ => 0) twoUsers leaveTwice).of_run hw 0).1
  obtain ⟨h1, h2⟩ := Prod.mk.inj hcount
  rw [h1, h2] at hcounted
  cases hcounted

end World

end CKGameServer
