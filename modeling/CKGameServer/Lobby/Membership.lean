import CKGameServer.Lobby.Refinement
import CKGameServer.Model.Client

/-!
Room lists, domain states and room indices (`Room::EnterUser`, `Room::LeaveUser`, `Actor`,
`ClearConnectionInfo`).

* `Lobby.Coherent`: a user stands in the list of a room once if it is in state `ROOM` with that
  room, and not at all otherwise.
* `Lobby.coherent_apply_iff`: which operations keep that.
* `World.membersCoherent_iff`: over a run of the system the three records agree exactly if users
  connect, log in and enter only from outside rooms, and leave only rooms in which nobody else
  has their id. Then a user is in one room at most, and in none after its disconnect.
* `World.dangling_member`: a client that enters a second room stays in the list of the first.
-/

namespace CKGameServer

namespace Lobby

/-- The user is in state `ROOM` with this room. -/
def InRoom (L : Lobby) (u : ℕ) (r : RoomIndex) : Prop :=
  (L.session u).state = .room ∧ (L.session u).room = some r

instance (L : Lobby) (u : ℕ) (r : RoomIndex) : Decidable (L.InRoom u r) :=
  inferInstanceAs (Decidable (_ ∧ _))

/-- A user stands in the list of a room once if it is in the room, and not at all otherwise. -/
def Coherent (L : Lobby) : Prop :=
  ∀ u r, (L.members r).count u = if L.InRoom u r then 1 else 0

/-- No other member of the room has the id of `u`. -/
def AloneWithID (L : Lobby) (u : ℕ) (r : RoomIndex) : Prop :=
  ∀ v ∈ L.members r, L.SameID u v → v = u

/-- Users connect, log in and enter only from outside rooms, and leave only rooms in which
nobody else has their id. -/
def FromOutside (L : Lobby) : Op → Prop
  | .connect u => (L.session u).state ≠ .room
  | .login u _ => (L.session u).state ≠ .room
  | .enter u r => L.HasPlace r → (L.session u).state ≠ .room
  | .leave u => ∀ r, (L.session u).room = some r → L.AloneWithID u r
  | .disconnect u => (L.session u).state = .room → ∀ r, (L.session u).room = some r →
      L.AloneWithID u r

variable {L : Lobby}

lemma Coherent.mem_iff (h : L.Coherent) {u : ℕ} {r : RoomIndex} :
    u ∈ L.members r ↔ L.InRoom u r := by
  rw [← List.count_pos_iff, h u r]
  split <;> simp_all

/-- A user outside rooms is in no list. -/
lemma Coherent.count_eq_zero (h : L.Coherent) {u : ℕ} (hu : (L.session u).state ≠ .room)
    (r : RoomIndex) : (L.members r).count u = 0 := by
  rw [h u r, if_neg fun hin => hu hin.1]

/-! ### New records -/

lemma inRoom_setSession_of_ne {u v : ℕ} {s : Session} {r : RoomIndex} (hv : v ≠ u) :
    (L.setSession u s).InRoom v r ↔ L.InRoom v r := by
  simp [InRoom, hv]

/-- A record outside rooms may replace another. -/
lemma coherent_setSession {u : ℕ} {s : Session} (hs : s.state ≠ .room)
    (hu : (L.session u).state ≠ .room) : (L.setSession u s).Coherent ↔ L.Coherent := by
  have hin : ∀ v r, (L.setSession u s).InRoom v r ↔ L.InRoom v r := fun v r => by
    by_cases hv : v = u
    · subst hv
      exact iff_of_false (fun h => hs (by simpa using h.1)) fun h => hu h.1
    · exact inRoom_setSession_of_ne hv
  simp only [Coherent, setSession_members, hin]

/-- A record outside rooms takes a user out of its room without the room's knowledge. -/
lemma coherent_setSession_iff (hrooms : L.WellRoomed) (h : L.Coherent) {u : ℕ} {s : Session}
    (hs : s.state ≠ .room) :
    (L.setSession u s).Coherent ↔ (L.session u).state ≠ .room := by
  constructor
  · intro h' hstate
    obtain ⟨r, hr⟩ := Option.isSome_iff_exists.mp ((hrooms u).2 hstate)
    have hmem : u ∈ (L.setSession u s).members r := h.mem_iff.mpr ⟨hstate, hr⟩
    exact hs (by simpa using (h'.mem_iff.mp hmem).1)
  · exact fun hu => (coherent_setSession hs hu).mpr h

/-! ### Entering and leaving -/

/-- A user may enter a room from outside rooms only. -/
lemma coherent_addTo_iff (hrooms : L.WellRoomed) (h : L.Coherent) {u : ℕ} {r : RoomIndex} :
    (L.addTo u r).Coherent ↔ (L.session u).state ≠ .room := by
  constructor
  · intro h' hstate
    obtain ⟨r₀, hr₀⟩ := Option.isSome_iff_exists.mp ((hrooms u).2 hstate)
    have hold : (L.members r₀).count u = 1 := by rw [h u r₀, if_pos ⟨hstate, hr₀⟩]
    have hnew := h' u r₀
    by_cases hr : r₀ = r
    · subst hr
      simp only [addTo_members, Function.update_self, List.count_append,
        List.count_singleton_self, hold] at hnew
      split at hnew <;> omega
    · simp [InRoom, hr, Ne.symm hr, hold] at hnew
  · intro hu v r'
    by_cases hv : v = u
    · subst hv
      have hzero := h.count_eq_zero hu
      by_cases hr : r' = r
      · subst hr
        simp [InRoom, hzero]
      · simp [InRoom, hr, Ne.symm hr, hzero]
    · have hold := h v r'
      have hin : (L.addTo u r).InRoom v r' ↔ L.InRoom v r' := by simp [InRoom, hv]
      simp only [hin, ← hold]
      by_cases hr : r' = r
      · subst hr
        simp [Ne.symm hv]
      · simp [hr]

/-- **A user may leave a room exactly if** nobody else there has its id. -/
lemma coherent_removeFrom_iff (h : L.Coherent) {u : ℕ} {r : RoomIndex}
    (hur : (L.session u).room = some r) :
    (L.removeFrom u r).Coherent ↔ L.AloneWithID u r := by
  have hin : ∀ {v}, v ≠ u → ∀ r', (L.removeFrom u r).InRoom v r' ↔ L.InRoom v r' :=
    fun hv r' => by simp [InRoom, hv]
  have hout : ∀ r', ¬(L.removeFrom u r).InRoom u r' := fun r' hu => by simp [InRoom] at hu
  constructor
  · intro h' v hv hid
    by_contra hne
    have hgone : v ∉ (L.removeFrom u r).members r := by simp [hid]
    exact hgone (h'.mem_iff.mpr ((hin hne r).mpr (h.mem_iff.mp hv)))
  · intro halone v r'
    by_cases hr : r' = r
    · subst hr
      rw [removeFrom_members, Function.update_self]
      by_cases hid : L.SameID u v
      · have hzero : ((L.members r').filter fun v => !L.SameID u v).count v = 0 :=
          List.count_eq_zero.mpr (by simp [hid])
        rw [hzero, if_neg]
        intro hvin
        by_cases hv : v = u
        · subst hv
          exact hout r' hvin
        · exact hv (halone v (h.mem_iff.mpr ((hin hv r').mp hvin)) hid)
      · have hv : v ≠ u := by rintro rfl; exact hid rfl
        rw [List.count_filter (by simpa using hid), h v r']
        simp only [hin hv]
    · rw [removeFrom_members, Function.update_of_ne hr, h v r']
      by_cases hv : v = u
      · subst hv
        rw [if_neg (hout r'), if_neg]
        rintro ⟨-, hroom⟩
        exact hr (Option.some.inj (hroom.symm.trans hur))
      · simp only [hin hv]

lemma coherent_leaveRoom_iff (h : L.Coherent) {u : ℕ} :
    (L.leaveRoom u).Coherent ↔ ∀ r, (L.session u).room = some r → L.AloneWithID u r := by
  cases hr : (L.session u).room with
  | none => simpa [leaveRoom_of_none hr] using h
  | some r => simp [leaveRoom_of_some hr, coherent_removeFrom_iff h hr]

/-- **Which operations keep the records in agreement.** -/
theorem coherent_apply_iff (hrooms : L.WellRoomed) (h : L.Coherent) (op : Op) :
    (L.apply op).Coherent ↔ L.FromOutside op := by
  cases op with
  | connect u => exact coherent_setSession_iff hrooms h (by simp)
  | login u userID => exact coherent_setSession_iff hrooms h (by simp)
  | enter u r =>
      rw [Lobby.apply, FromOutside]
      split
      · rename_i hplace
        rw [coherent_addTo_iff hrooms h]
        exact ⟨fun hu _ => hu, fun hu => hu hplace⟩
      · rename_i hfull
        exact iff_of_true h fun hplace => absurd hplace hfull
  | leave u => exact coherent_leaveRoom_iff h
  | disconnect u =>
      rw [FromOutside]
      cases hstate : (L.session u).state with
      | none => simpa [apply_disconnect_of_none hstate] using h
      | login =>
          rw [apply_disconnect_of_login hstate, coherent_setSession (by simp) (by simp [hstate])]
          simpa using h
      | room =>
          obtain ⟨r, hr⟩ := Option.isSome_iff_exists.mp ((hrooms u).2 hstate)
          rw [apply_disconnect_of_room hstate hr, coherent_setSession (by simp) (by simp),
            ← leaveRoom_of_some hr, coherent_leaveRoom_iff h]
          simp

lemma coherent_empty : empty.Coherent := fun _ _ => rfl

end Lobby

namespace World

/-- A user stands once in the `mUserList` of the room its `mRoomIndex` names if its domain state
is `ROOM`, and in no other list. -/
def MembersCoherent (w : World) : Prop :=
  ∀ u r, (w.server.mRoomList r).mUserList.count u =
    if (w.server.mUserObjPool u).mCurDomainState = .room ∧
      (w.server.mUserObjPool u).mRoomIndex = Room.mRoomNum r then 1 else 0

/-- A user stands in the list of one room at most. -/
def OneRoomEach (w : World) : Prop :=
  ∀ u r r', u ∈ (w.server.mRoomList r).mUserList → u ∈ (w.server.mRoomList r').mUserList → r = r'

/-- The operation of the event meets the condition of `Lobby.FromOutside`. -/
def FromOutside (w : World) (e : Event) : Prop :=
  ∀ op, w.op e = some op → w.server.lobby.FromOutside op

/-- After a `ProcessUserDisConnect` no list holds its user. -/
def DisconnectRemoves (w : World) (e : Event) : Prop :=
  ∀ u, w.op e = some (.disconnect u) → ∀ w', w.step e = some w' →
    ∀ r, u ∉ (w'.server.mRoomList r).mUserList

lemma membersCoherent_iff_lobby (w : World) : w.MembersCoherent ↔ w.server.lobby.Coherent := by
  have hin : ∀ u r, w.server.lobby.InRoom u r ↔
      (w.server.mUserObjPool u).mCurDomainState = .room ∧
        (w.server.mUserObjPool u).mRoomIndex = Room.mRoomNum r := fun u r =>
    and_congr_right fun _ => RoomManager.getRoomByNumber_eq_some
  simp only [MembersCoherent, Lobby.Coherent, hin]
  rfl

lemma MembersCoherent.oneRoomEach {w : World} (h : w.MembersCoherent) : w.OneRoomEach := by
  rw [membersCoherent_iff_lobby] at h
  intro u r r' hr hr'
  have h1 := (h.mem_iff.mp hr).2
  have h2 := (h.mem_iff.mp hr').2
  exact Option.some.inj (h1.symm.trans h2)

/-- A step whose operation comes from outside keeps the records in agreement. -/
lemma membersCoherent_step {w w' : World} {e : Event}
    (h : w.server.lobby.WellRoomed ∧ w.MembersCoherent) (he : w.FromOutside e)
    (hstep : w.step e = some w') : w'.server.lobby.WellRoomed ∧ w'.MembersCoherent := by
  obtain ⟨hrooms, hcoherent⟩ := h
  rw [membersCoherent_iff_lobby] at hcoherent ⊢
  rw [step_lobby hstep]
  cases hop : w.op e with
  | none => exact ⟨hrooms, hcoherent⟩
  | some op =>
      exact ⟨hrooms.apply op, (Lobby.coherent_apply_iff hrooms hcoherent op).mpr (he op hop)⟩

lemma disconnectRemoves_of_coherent {w : World} {e : Event}
    (h : w.server.lobby.WellRoomed ∧ w.MembersCoherent) (he : w.FromOutside e) :
    w.DisconnectRemoves e := by
  intro u hop w' hstep r hmem
  have hcoherent := (membersCoherent_iff_lobby w').mp (membersCoherent_step h he hstep).2
  have hin := (hcoherent.mem_iff.mp hmem).1
  rw [step_lobby hstep, hop] at hin
  cases (Lobby.state_apply_disconnect h.1 u).symm.trans hin

/-- **Room lists, domain states and room indices agree** in every state of a run from the start
of the server exactly if users connect, log in and enter rooms only from outside rooms, and leave
only rooms in which nobody else has their id. In such a run a user is in one room at most, and in
none once its disconnect has been processed. -/
theorem membersCoherent_iff (maxClient : ℕ) (memory : ℕ → Memory.View) (store : Store)
    (es : List Event) :
    (Runs.Always step MembersCoherent (init maxClient memory store) es ↔
      Runs.Along step FromOutside (init maxClient memory store) es) ∧
    (Runs.Along step FromOutside (init maxClient memory store) es →
      Runs.Always step OneRoomEach (init maxClient memory store) es ∧
        Runs.Along step DisconnectRemoves (init maxClient memory store) es) := by
  have hinit : (init maxClient memory store).server.lobby.WellRoomed ∧
      (init maxClient memory store).MembersCoherent :=
    ⟨Lobby.wellRoomed_empty, (membersCoherent_iff_lobby _).mpr Lobby.coherent_empty⟩
  refine ⟨?_, fun h => ⟨?_, ?_⟩⟩
  · have hlobby := always_lobby_iff (I := Lobby.WellRoomed) (P := Lobby.Coherent)
      (fun _ op h => h.apply op) (fun _ op hrooms h => Lobby.coherent_apply_iff hrooms h op) es
      hinit.1 ((membersCoherent_iff_lobby _).mp hinit.2)
    simp only [← membersCoherent_iff_lobby] at hlobby
    exact hlobby
  · exact (Runs.always_of_along (fun _ _ _ h he hstep => membersCoherent_step h he hstep)
      hinit h).mono fun _ h => h.2.oneRoomEach
  · exact Runs.along_of_along (C := FromOutside)
      (P := fun w => w.server.lobby.WellRoomed ∧ w.MembersCoherent)
      (fun _ _ h he => disconnectRemoves_of_coherent h he)
      (fun _ _ _ h he hstep => membersCoherent_step h he hstep) hinit h

/-- `a` logs in, enters room 0, enters room 1 and disconnects. -/
def enterTwice : List Event :=
  [.connect 0, .systemPacket {}] ++ Event.login 0 [97] [98] ++
    Event.request 0 (roomEnterRequestPacket 0) ++ Event.request 0 (roomEnterRequestPacket 1) ++
    [.close 0, .systemPacket {}]

/-- The disconnect takes `a` out of room 1; the list of room 0 still holds its slot. -/
theorem dangling_member :
    ¬∀ (maxClient : ℕ) (memory : ℕ → Memory.View) (store : Store) (es : List Event),
      Runs.Always step MembersCoherent (init maxClient memory store) es := by
  intro h
  have hrun : (Runs.run step (init 3 (fun _ _ => 0) twoUsers) enterTwice).map
      (fun w => ((w.server.mRoomList 0).mUserList,
        (w.server.mUserObjPool 0).mCurDomainState)) = some ([0], .none) := by decide +kernel
  obtain ⟨w, hw, hmap⟩ := Option.map_eq_some_iff.mp hrun
  have hcoherent := (h 3 (fun _ _ => 0) twoUsers enterTwice).of_run hw 0 0
  obtain ⟨h1, h2⟩ := Prod.mk.inj hmap
  rw [h1, h2] at hcoherent
  simp at hcoherent

end World

end CKGameServer
