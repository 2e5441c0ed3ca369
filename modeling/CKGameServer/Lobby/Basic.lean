import CKGameServer.Model.Server

/-!
The lobby: who is logged in under which id, and who is in which room.

This is what `Actor`, `Room` and `PacketManager` keep between them, without packets, queues and
positions: one record for each user, and for each room its list and its counter.

* `Lobby`: the state.
* `Lobby.Op`: a connection begins, a connection ends, a login succeeds, a user enters a room, a
  user leaves its room.
* `Lobby.apply`: the effect of each; `Lobby.apply_disconnect_keeps` is the rule for the one that
  has parts.
* `Lobby.WellRoomed`: a user in state `NONE` has no room and a user in state `ROOM` has one;
  every operation keeps it.
* `Lobby.session_apply_of_ne`, `Lobby.count_apply_le`: an operation changes the record of its own
  user only, and only an `enter` puts a user into a list.
-/

namespace CKGameServer

open Memory

/-- What the lobby knows of a user. The room is the one `mRoomIndex` names: it survives leaving. -/
structure Session where
  userID : Bytes := []
  state : DomainState := .none
  room : Option RoomIndex := none
  deriving DecidableEq

/-- The users, and the rooms with their lists and counters. -/
structure Lobby where
  session : ℕ → Session
  members : RoomIndex → List ℕ
  count : RoomIndex → UInt16

namespace Lobby

/-- The operations of the lobby. -/
inductive Op where
  | connect (u : ℕ)
  | disconnect (u : ℕ)
  | login (u : ℕ) (userID : Bytes)
  | enter (u : ℕ) (r : RoomIndex)
  | leave (u : ℕ)

variable (L : Lobby)

/-- A new record for a user. -/
@[simps -fullyApplied]
def setSession (u : ℕ) (s : Session) : Lobby :=
  { L with session := Function.update L.session u s }

/-- Two users have the same id, which is how a room finds the one who leaves. -/
def SameID (u v : ℕ) : Prop := (L.session u).userID = (L.session v).userID

instance (u v : ℕ) : Decidable (L.SameID u v) := inferInstanceAs (Decidable (_ = _))

/-- All members of a room with the id of `u` go out of its list, and the counter down by one. -/
@[simps -fullyApplied]
def removeFrom (u : ℕ) (r : RoomIndex) : Lobby where
  session := Function.update L.session u { L.session u with state := .login }
  members := Function.update L.members r ((L.members r).filter fun v => !L.SameID u v)
  count := Function.update L.count r (L.count r - 1)

/-- A user joins the list of a room. -/
@[simps -fullyApplied]
def addTo (u : ℕ) (r : RoomIndex) : Lobby where
  session := Function.update L.session u { L.session u with state := .room, room := some r }
  members := Function.update L.members r (L.members r ++ [u])
  count := Function.update L.count r (L.count r + 1)

/-- The counter of the room allows one more. -/
def HasPlace (r : RoomIndex) : Prop := (L.count r).toNat < mMaxUserCount

instance (r : RoomIndex) : Decidable (L.HasPlace r) := inferInstanceAs (Decidable (_ < _))

/-- The user leaves the room it has, if it has one, whatever its state. -/
def leaveRoom (u : ℕ) : Lobby :=
  match (L.session u).room with
  | none => L
  | some r => L.removeFrom u r

/-- The effect of an operation. -/
def apply : Op → Lobby
  | .connect u => L.setSession u {}
  | .disconnect u =>
    let L := if (L.session u).state = .room then L.leaveRoom u else L
    if (L.session u).state ≠ .none then L.setSession u {} else L
  | .login u userID => L.setSession u { L.session u with userID := userID, state := .login }
  | .enter u r => if L.HasPlace r then L.addTo u r else L
  | .leave u => L.leaveRoom u

/-- The lobby of a server that has just started. -/
def empty : Lobby where
  session _ := {}
  members _ := []
  count _ := 0

variable {L}

/-! ### Leaving and disconnecting -/

@[simp] lemma setSession_self (u : ℕ) : L.setSession u (L.session u) = L := by
  rw [setSession, Function.update_eq_self]

lemma leaveRoom_of_none {u : ℕ} (h : (L.session u).room = none) : L.leaveRoom u = L := by
  rw [leaveRoom, h]

lemma leaveRoom_of_some {u : ℕ} {r : RoomIndex} (h : (L.session u).room = some r) :
    L.leaveRoom u = L.removeFrom u r := by
  rw [leaveRoom, h]

/-- A disconnect of a user in a room empties its record after taking it out of the room. -/
lemma apply_disconnect_of_room {u : ℕ} {r : RoomIndex} (hstate : (L.session u).state = .room)
    (hr : (L.session u).room = some r) :
    L.apply (.disconnect u) = (L.removeFrom u r).setSession u {} := by
  simp only [Lobby.apply, if_pos hstate, leaveRoom_of_some hr]
  rw [if_pos]
  simp

/-- A disconnect of a user outside rooms empties its record. -/
lemma apply_disconnect_of_login {u : ℕ} (hstate : (L.session u).state = .login) :
    L.apply (.disconnect u) = L.setSession u {} := by
  simp [Lobby.apply, hstate]

/-- A disconnect of a user in state `NONE` does nothing. -/
lemma apply_disconnect_of_none {u : ℕ} (hstate : (L.session u).state = .none) :
    L.apply (.disconnect u) = L := by
  simp [Lobby.apply, hstate]

/-- A disconnect takes the user out of its room or leaves it there, and empties its record or
leaves it as it is. -/
lemma apply_disconnect_cases (L : Lobby) (u : ℕ) :
    ∃ L', (L' = L ∨ L' = L.leaveRoom u) ∧
      (L.apply (.disconnect u) = L' ∨ L.apply (.disconnect u) = L'.setSession u {}) := by
  refine ⟨if (L.session u).state = .room then L.leaveRoom u else L, ?_, ?_⟩
  · split
    · exact .inr rfl
    · exact .inl rfl
  · rw [Lobby.apply]
    generalize (if (L.session u).state = .room then L.leaveRoom u else L) = L'
    by_cases hstate : (L'.session u).state = .none
    · exact .inl (if_neg (not_not.mpr hstate))
    · exact .inr (if_pos hstate)

/-- The rule for a disconnect: it keeps what leaving the room and emptying the record keep. -/
lemma apply_disconnect_keeps {P : Lobby → Prop} {u : ℕ} (hleave : P (L.leaveRoom u))
    (hclear : ∀ M : Lobby, P M → P (M.setSession u {})) (h : P L) :
    P (L.apply (.disconnect u)) := by
  obtain ⟨L', hL', hdisconnect⟩ := L.apply_disconnect_cases u
  have hkept : P L' := by
    rcases hL' with rfl | rfl
    · exact h
    · exact hleave
  rcases hdisconnect with hdisconnect | hdisconnect
  · rw [hdisconnect]
    exact hkept
  · rw [hdisconnect]
    exact hclear L' hkept

/-! ### Rooms of users -/

variable (L) in
/-- A user in state `NONE` has no room, and a user in state `ROOM` has one. -/
def WellRoomed : Prop :=
  ∀ u, ((L.session u).state = .none → (L.session u).room = none) ∧
    ((L.session u).state = .room → (L.session u).room.isSome)

lemma WellRoomed.setSession (h : L.WellRoomed) (u : ℕ) {s : Session}
    (hnone : s.state = .none → s.room = none) (hroom : s.state = .room → s.room.isSome) :
    (L.setSession u s).WellRoomed := fun v => by
  by_cases hv : v = u
  · subst hv
    simpa using ⟨hnone, hroom⟩
  · simpa [hv] using h v

lemma WellRoomed.leaveRoom (h : L.WellRoomed) (u : ℕ) : (L.leaveRoom u).WellRoomed := by
  cases hr : (L.session u).room with
  | none => rwa [leaveRoom_of_none hr]
  | some r =>
      rw [leaveRoom_of_some hr]
      exact h.setSession u (s := { L.session u with state := .login })
        (fun hs => by cases hs) (fun hs => by cases hs)

/-- Every operation keeps it. -/
lemma WellRoomed.apply (h : L.WellRoomed) (op : Op) : (L.apply op).WellRoomed := by
  cases op with
  | connect u => exact h.setSession u (fun _ => rfl) (fun hs => by cases hs)
  | disconnect u =>
      exact apply_disconnect_keeps (h.leaveRoom u)
        (fun M hM => hM.setSession u (fun _ => rfl) (fun hs => by cases hs)) h
  | login u userID =>
      exact h.setSession u (s := { L.session u with userID := userID, state := .login })
        (fun hs => by cases hs) (fun hs => by cases hs)
  | enter u r =>
      rw [Lobby.apply]
      split
      · exact h.setSession u (s := { L.session u with state := .room, room := some r })
          (fun hs => by cases hs) (fun _ => rfl)
      · exact h
  | leave u => exact h.leaveRoom u

lemma wellRoomed_empty : empty.WellRoomed := fun _ => ⟨fun _ => rfl, fun h => by cases h⟩

/-- A disconnect leaves its user in state `NONE`. -/
lemma state_apply_disconnect (h : L.WellRoomed) (u : ℕ) :
    ((L.apply (.disconnect u)).session u).state = .none := by
  cases hstate : (L.session u).state with
  | none => rw [apply_disconnect_of_none hstate, hstate]
  | login => simp [apply_disconnect_of_login hstate]
  | room =>
      obtain ⟨r, hr⟩ := Option.isSome_iff_exists.mp ((h u).2 hstate)
      simp [apply_disconnect_of_room hstate hr]

/-! ### What stays -/

/-- The user an operation is about. -/
def Op.user : Op → ℕ
  | .connect u => u
  | .disconnect u => u
  | .login u _ => u
  | .enter u _ => u
  | .leave u => u

lemma session_leaveRoom_of_ne {u v : ℕ} (h : u ≠ v) :
    (L.leaveRoom v).session u = L.session u := by
  cases hroom : (L.session v).room with
  | none => rw [leaveRoom_of_none hroom]
  | some r => rw [leaveRoom_of_some hroom, removeFrom_session, Function.update_of_ne h]

/-- An operation leaves the records of all other users as they are. -/
lemma session_apply_of_ne {op : Op} {u : ℕ} (h : u ≠ op.user) :
    (L.apply op).session u = L.session u := by
  cases op with
  | connect v => exact Function.update_of_ne h _ _
  | login v userID => exact Function.update_of_ne h _ _
  | leave v => exact session_leaveRoom_of_ne h
  | disconnect v =>
      exact apply_disconnect_keeps (P := fun M => M.session u = L.session u)
        (session_leaveRoom_of_ne h) (fun M hM => (Function.update_of_ne h _ _).trans hM) rfl
  | enter v r =>
      rw [Lobby.apply]
      split
      · exact Function.update_of_ne h _ _
      · rfl

lemma count_leaveRoom_le (u v : ℕ) (r : RoomIndex) :
    ((L.leaveRoom v).members r).count u ≤ (L.members r).count u := by
  cases hroom : (L.session v).room with
  | none => rw [leaveRoom_of_none hroom]
  | some r' =>
      rw [leaveRoom_of_some hroom, removeFrom_members]
      by_cases hr : r = r'
      · subst hr
        rw [Function.update_self]
        exact List.filter_sublist.count_le u
      · rw [Function.update_of_ne hr]

/-- Only who enters a room stands in its list more often than before. -/
lemma count_apply_le {op : Op} {u : ℕ} (h : ∀ r, op = .enter u r → ¬L.HasPlace r) (r : RoomIndex) :
    ((L.apply op).members r).count u ≤ (L.members r).count u := by
  cases op with
  | connect v => exact le_rfl
  | login v userID => exact le_rfl
  | leave v => exact count_leaveRoom_le u v r
  | disconnect v =>
      exact apply_disconnect_keeps (P := fun M => (M.members r).count u ≤ (L.members r).count u)
        (count_leaveRoom_le u v r) (fun M hM => hM) le_rfl
  | enter v r' =>
      rw [Lobby.apply]
      split
      · rename_i hplace
        have hne : u ≠ v := fun huv => h r' (by rw [huv]) hplace
        rw [addTo_members]
        by_cases hr : r = r'
        · subst hr
          rw [Function.update_self, List.count_append, List.count_singleton,
            beq_false_of_ne hne.symm]
          exact le_rfl
        · rw [Function.update_of_ne hr]
      · exact le_rfl

end Lobby

end CKGameServer
