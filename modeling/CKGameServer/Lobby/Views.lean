import Mathlib.Data.Finset.Lattice.Basic
import CKGameServer.Lobby.DoubleLogin
import CKGameServer.Lobby.Membership
import CKGameServer.Lobby.News

/-!
Who a player knows to be in its room (`Room::EnterUser`, `NotifyUserEnter`, `LeaveUser`,
`EnterNpc`).

* `News.roster`: the uuids a player knows of, after one more piece of news.
* `occupants`: the uuids of the users and the npcs of a room.
* `Entered.ViewsAgree`: what every member of a room knows is who is in it; `ViewsAgree.next`: which
  steps keep that.
* `Viewed`: the system with the slots that are connected; `Viewed.Protocol`: every slot connects,
  logs in, enters and leaves rooms and disconnects in that order.
* `Viewed.viewsAgree_of_protocol`: in every run of such clients the views agree.
-/

namespace CKGameServer

open Memory PacketManager

/-- The uuids a player knows of, after one more piece of news. -/
def News.roster (known : Finset ℤ) : News → Finset ℤ
  | present uuid _ => insert uuid known
  | joined uuid => insert uuid known
  | gone uuid => known.erase uuid
  | moved _ _ => known

/-- The uuids of the users and the npcs of a room. -/
def occupants (users : List ℕ) (npcs : List Npc) : Finset ℤ :=
  (users.map fun u : ℕ => (u : ℤ)).toFinset ∪ (npcs.map fun npc => npc.mIndex).toFinset

section Occupants

variable {users : List ℕ} {npcs : List Npc} {i : ℕ}

lemma mem_occupants {uuid : ℤ} : uuid ∈ occupants users npcs ↔
    (∃ u ∈ users, (u : ℤ) = uuid) ∨ ∃ npc ∈ npcs, npc.mIndex = uuid := by
  simp [occupants]

lemma occupants_append_user :
    occupants (users ++ [i]) npcs = insert (i : ℤ) (occupants users npcs) := by
  ext uuid
  simp only [Finset.mem_insert, mem_occupants, List.mem_append, List.mem_singleton]
  constructor
  · rintro (⟨u, hu | rfl, rfl⟩ | hnpc)
    · exact .inr (.inl ⟨u, hu, rfl⟩)
    · exact .inl rfl
    · exact .inr (.inr hnpc)
  · rintro (rfl | ⟨u, hu, rfl⟩ | hnpc)
    · exact .inl ⟨i, .inr rfl, rfl⟩
    · exact .inl ⟨u, .inl hu, rfl⟩
    · exact .inr hnpc

lemma occupants_append_npc {npc : Npc} :
    occupants users (npcs ++ [npc]) = insert npc.mIndex (occupants users npcs) := by
  ext uuid
  simp only [Finset.mem_insert, mem_occupants, List.mem_append, List.mem_singleton]
  constructor
  · rintro (huser | ⟨n, hn | rfl, rfl⟩)
    · exact .inr (.inl huser)
    · exact .inr (.inr ⟨n, hn, rfl⟩)
    · exact .inl rfl
  · rintro (rfl | huser | ⟨n, hn, rfl⟩)
    · exact .inr ⟨npc, .inr rfl, rfl⟩
    · exact .inl huser
    · exact .inr ⟨n, .inl hn, rfl⟩

/-- Without a user, where no npc has the uuid of the user. -/
lemma occupants_filter {stays : ℕ → Bool} (hstays : ∀ u ∈ users, stays u = false ↔ u = i)
    (hnpcs : ∀ npc ∈ npcs, npc.mIndex ≠ i) :
    occupants (users.filter stays) npcs = (occupants users npcs).erase (i : ℤ) := by
  ext uuid
  simp only [Finset.mem_erase, mem_occupants, List.mem_filter]
  constructor
  · rintro (⟨u, ⟨hu, hstay⟩, rfl⟩ | ⟨npc, hnpc, rfl⟩)
    · refine ⟨fun heq => ?_, .inl ⟨u, hu, rfl⟩⟩
      rw [(hstays u hu).mpr (Int.ofNat_inj.mp heq)] at hstay
      cases hstay
    · exact ⟨hnpcs npc hnpc, .inr ⟨npc, hnpc, rfl⟩⟩
  · rintro ⟨hne, ⟨u, hu, rfl⟩ | hnpc⟩
    · refine .inl ⟨u, ⟨hu, Bool.eq_true_of_not_eq_false fun hleaves => hne ?_⟩, rfl⟩
      rw [(hstays u hu).mp hleaves]
    · exact .inr hnpc

/-- Who is told of everybody present knows them. -/
lemma foldl_roster_present {α : Type} (xs : List α) (uuid : α → ℤ) (position : α → Vector3)
    (known : Finset ℤ) :
    (xs.map fun x => News.present (uuid x) (position x)).foldl News.roster known =
      known ∪ (xs.map uuid).toFinset := by
  induction xs generalizing known with
  | nil => simp
  | cons x xs ih =>
      rw [List.map_cons, List.foldl_cons, ih, List.map_cons, List.toFinset_cons, News.roster,
        Finset.insert_union, Finset.union_insert]

end Occupants

namespace Lobby.Coherent

variable {L : Lobby} {u : ℕ} {r r' : RoomIndex}

lemma count_eq_one (h : L.Coherent) (hu : u ∈ L.members r) : (L.members r).count u = 1 := by
  rw [h u r, if_pos (h.mem_iff.mp hu)]

/-- A member of a room is in no other. -/
lemma notMem_of_ne (h : L.Coherent) (hu : u ∈ L.members r) (hr : r ≠ r') : u ∉ L.members r' :=
  fun hu' => hr (Option.some.inj ((h.mem_iff.mp hu).2.symm.trans (h.mem_iff.mp hu').2))

end Lobby.Coherent

namespace World

namespace Entered

variable (s : Entered)

/-- Who a player knows to be in its room. -/
def view (u : ℕ) : Finset ℤ := Outbox.replica News.roster ∅ u (s.heard u)

/-- Every member of a room knows who is in it. -/
def ViewsAgree : Prop :=
  ∀ r, ∀ o ∈ (s.1.server.mRoomList r).mUserList,
    s.view o = occupants (s.1.server.mRoomList r).mUserList (s.1.server.mRoomList r).mNpcList

/-- No npc has the number of a slot below `10000`. -/
def NpcsAbove : Prop := ∀ r, ∀ npc ∈ (s.1.server.mRoomList r).mNpcList, 10000 ≤ npc.mIndex

variable {s} {e : Event} {w' : World} {o : ℕ} {r : RoomIndex}

lemma npcsAbove_next (hs : s.NpcsAbove) (h : s.1.step e = some w') :
    NpcsAbove (w', s.next e w') := by
  intro r npc hnpc
  have hlist : (w'.server.mRoomList r).mNpcList =
      (s.1.server.mRoomList r).mNpcList ++ s.1.spawned e r := (step_news h).2 r
  rw [show ((w', s.next e w').1.server.mRoomList r).mNpcList = _ from hlist] at hnpc
  rcases List.mem_append.mp hnpc with hold | hnew
  · exact hs r npc hold
  · cases hop : s.1.op e with
    | some op =>
        rw [spawned_of_op hop] at hnew
        cases hnew
    | none =>
        rcases news_of_op_none hop with ⟨hnone, -⟩ | ⟨r₀, npc₀, hindex, hspawned, -⟩
        · rw [hnone] at hnew
          cases hnew
        · rw [hspawned] at hnew
          split at hnew
          · rw [List.mem_singleton.mp hnew, hindex]
            omega
          · cases hnew

/-- The view of who enters. -/
lemma view_of_enters (h : s.1.step e = some w') (henters : s.Enters e o) :
    view (w', s.next e w') o = Outbox.replica News.roster ∅ o (s.1.news e) := by
  rw [view, heard_of_enters h henters]

/-- The view of anybody else. -/
lemma view_of_not_enters (hs : s.Marked) (h : s.1.step e = some w') (henters : ¬s.Enters e o) :
    view (w', s.next e w') o = Outbox.replica News.roster (s.view o) o (s.1.news e) := by
  rw [view, heard_of_not_enters hs h henters, Outbox.replica_append]
  rfl

/-! ### One step -/

lemma members_of_step (h : s.1.step e = some w') (r : RoomIndex) :
    (w'.server.mRoomList r).mUserList = (s.1.server.lobby.applyOption (s.1.op e)).members r :=
  congrFun (congrArg Lobby.members (step_lobby h)) r

/-- In a room whose users and npcs stay, a member whose view stays keeps it right. -/
lemma ViewsAgree.of_same (hagree : s.ViewsAgree) (h : s.1.step e = some w')
    (hmembers : (w'.server.mRoomList r).mUserList = (s.1.server.mRoomList r).mUserList)
    (hspawned : s.1.spawned e r = []) (ho : o ∈ (s.1.server.mRoomList r).mUserList)
    (hview : view (w', s.next e w') o = s.view o) :
    view (w', s.next e w') o =
      occupants (w'.server.mRoomList r).mUserList (w'.server.mRoomList r).mNpcList := by
  rw [hview, hmembers, (step_news h).2 r, hspawned, List.append_nil]
  exact hagree r o ho

/-- A step without news that leaves the rooms as they are. -/
lemma ViewsAgree.of_quiet (hs : s.Marked) (hagree : s.ViewsAgree) (h : s.1.step e = some w')
    (henters : ∀ o, ¬s.Enters e o) (hnews : s.1.news e = [])
    (hspawned : ∀ r, s.1.spawned e r = [])
    (hmembers : ∀ r, (w'.server.mRoomList r).mUserList = (s.1.server.mRoomList r).mUserList) :
    ViewsAgree (w', s.next e w') := by
  intro r o ho
  replace ho : o ∈ (w'.server.mRoomList r).mUserList := ho
  rw [hmembers] at ho
  refine hagree.of_same h (hmembers r) (hspawned r) ho ?_
  rw [view_of_not_enters hs h (henters o), hnews]
  rfl

/-- A step that carries out no operation: everybody in the room of a new npc is told of it. -/
lemma ViewsAgree.of_op_none (hs : s.Marked) (hcoherent : s.1.server.lobby.Coherent)
    (hagree : s.ViewsAgree) (h : s.1.step e = some w') (hop : s.1.op e = none) :
    ViewsAgree (w', s.next e w') := by
  have hmembers : ∀ r, (w'.server.mRoomList r).mUserList = (s.1.server.mRoomList r).mUserList :=
    fun r => by
      rw [members_of_step h, hop]
      rfl
  have henters : ∀ o, ¬s.Enters e o := not_enters_of_op_none hop
  rcases news_of_op_none hop with ⟨hspawned, hnews | ⟨uuid, r₀, motion, hnews⟩⟩ |
    ⟨r₀, npc, -, hspawned, hnews⟩
  · exact hagree.of_quiet hs h henters hnews hspawned hmembers
  · intro r o ho
    replace ho : o ∈ (w'.server.mRoomList r).mUserList := ho
    rw [hmembers] at ho
    refine hagree.of_same h (hmembers r) (hspawned r) ho ?_
    rw [view_of_not_enters hs h (henters o), hnews]
    refine Outbox.replica_of_ignored fun n hn known => ?_
    obtain ⟨_, -, heq⟩ := List.mem_map.mp hn
    rw [← (Prod.mk.inj heq).2]
    rfl
  · intro r o ho
    replace ho : o ∈ (w'.server.mRoomList r).mUserList := ho
    rw [hmembers] at ho
    by_cases hr : r = r₀
    · subst hr
      have honce : (s.1.server.mRoomList r).mUserList.count o = 1 := hcoherent.count_eq_one ho
      have hnpcs : (w'.server.mRoomList r).mNpcList =
          (s.1.server.mRoomList r).mNpcList ++ [npc] := by
        rw [(step_news h).2 r, hspawned, if_pos rfl]
      show _ = occupants (w'.server.mRoomList r).mUserList (w'.server.mRoomList r).mNpcList
      rw [hnpcs, hmembers, occupants_append_npc, view_of_not_enters hs h (henters o), hnews,
        Outbox.replica_broadcast honce, hagree r o ho]
      rfl
    · refine hagree.of_same h (hmembers r) (by rw [hspawned, if_neg hr]) ho ?_
      rw [view_of_not_enters hs h (henters o), hnews]
      exact Outbox.replica_broadcast_of_notMem (hcoherent.notMem_of_ne ho hr) _

/-- A user from outside the rooms enters one, is told who is there, and all there are told of
it. -/
lemma ViewsAgree.of_enter (hs : s.Marked) (hcoherent : s.1.server.lobby.Coherent)
    (hagree : s.ViewsAgree) (h : s.1.step e = some w') {i : ℕ} {r₀ : RoomIndex}
    (hop : s.1.op e = some (.enter i r₀)) (hplace : s.1.server.lobby.HasPlace r₀)
    (houtside : (s.1.server.lobby.session i).state ≠ .room) : ViewsAgree (w', s.next e w') := by
  have hspawned := spawned_of_op hop
  have hnews : s.1.news e = enterNews i r₀ s.1.server := by
    rw [news_of_op hop, opNews, if_pos hplace]
  have hi : ∀ r, i ∉ (s.1.server.mRoomList r).mUserList := fun r =>
    List.count_eq_zero.mp (hcoherent.count_eq_zero houtside r)
  have hnpcs : ∀ r, (w'.server.mRoomList r).mNpcList = (s.1.server.mRoomList r).mNpcList :=
    fun r => by rw [(step_news h).2 r, hspawned, List.append_nil]
  have hentered : (w'.server.mRoomList r₀).mUserList =
      (s.1.server.mRoomList r₀).mUserList ++ [i] := by
    rw [members_of_step h, hop, Lobby.applyOption, Lobby.apply, if_pos hplace, Lobby.addTo_members,
      Function.update_self]
    rfl
  have hother : ∀ r, r ≠ r₀ →
      (w'.server.mRoomList r).mUserList = (s.1.server.mRoomList r).mUserList := fun r hr => by
    rw [members_of_step h, hop, Lobby.applyOption, Lobby.apply, if_pos hplace, Lobby.addTo_members,
      Function.update_of_ne hr]
    rfl
  have hnot : ∀ o, o ≠ i → ¬s.Enters e o := fun o hne henters =>
    hne ((enters_iff hop).mp henters).1
  intro r o ho
  replace ho : o ∈ (w'.server.mRoomList r).mUserList := ho
  by_cases hr : r = r₀
  · subst hr
    show _ = occupants (w'.server.mRoomList r).mUserList (w'.server.mRoomList r).mNpcList
    rw [hentered] at ho
    rw [hentered, hnpcs, occupants_append_user]
    by_cases hne : o = i
    · subst hne
      rw [view_of_enters h ⟨r, hop, hplace⟩, hnews, replica_enterNews_self (hi r),
        List.foldl_append, foldl_roster_present, foldl_roster_present, Finset.empty_union]
      rfl
    · have hmem : o ∈ (s.1.server.mRoomList r).mUserList :=
        (List.mem_append.mp ho).resolve_right fun hlast => hne (List.mem_singleton.mp hlast)
      rw [view_of_not_enters hs h (hnot o hne), hnews,
        replica_enterNews_of_count hne (hcoherent.count_eq_one hmem), hagree r o hmem]
      rfl
  · rw [hother r hr] at ho
    have hne : o ≠ i := fun heq => hi r (heq ▸ ho)
    refine hagree.of_same h (hother r hr) (hspawned r) ho ?_
    rw [view_of_not_enters hs h (hnot o hne), hnews]
    exact replica_enterNews_of_notMem hne (hcoherent.notMem_of_ne ho hr)

/-- A user leaves its room, and all who stay are told of it. -/
lemma ViewsAgree.of_leaves (hs : s.Marked) (hcoherent : s.1.server.lobby.Coherent)
    (hagree : s.ViewsAgree) (h : s.1.step e = some w') {i : ℕ} {r₀ : RoomIndex}
    (hroom : (s.1.server.lobby.session i).room = some r₀)
    (hnpcs : ∀ npc ∈ (s.1.server.mRoomList r₀).mNpcList, npc.mIndex ≠ i)
    (halone : s.1.server.lobby.AloneWithID i r₀) (hnot : ∀ o, ¬s.Enters e o)
    (hspawned : ∀ r, s.1.spawned e r = []) (hnews : s.1.news e = leaveNews i s.1.server)
    (hmembers : ∀ r, (w'.server.mRoomList r).mUserList = (s.1.server.lobby.leaveRoom i).members r) :
    ViewsAgree (w', s.next e w') := by
  have hleft : (w'.server.mRoomList r₀).mUserList =
      (s.1.server.mRoomList r₀).mUserList.filter fun v => !s.1.server.lobby.SameID i v := by
    rw [hmembers, Lobby.leaveRoom_of_some hroom, Lobby.removeFrom_members, Function.update_self]
    rfl
  have hother : ∀ r, r ≠ r₀ →
      (w'.server.mRoomList r).mUserList = (s.1.server.mRoomList r).mUserList := fun r hr => by
    rw [hmembers, Lobby.leaveRoom_of_some hroom, Lobby.removeFrom_members, Function.update_of_ne hr]
    rfl
  intro r o ho
  replace ho : o ∈ (w'.server.mRoomList r).mUserList := ho
  by_cases hr : r = r₀
  · subst hr
    have hstays : ∀ u ∈ (s.1.server.mRoomList r).mUserList,
        (!decide (s.1.server.lobby.SameID i u)) = false ↔ u = i := fun u hu => by
      rw [Bool.not_eq_false', decide_eq_true_eq]
      exact ⟨halone u hu, fun heq => heq ▸ rfl⟩
    show _ = occupants (w'.server.mRoomList r).mUserList (w'.server.mRoomList r).mNpcList
    rw [hleft] at ho
    obtain ⟨hmem, hstay⟩ := List.mem_filter.mp ho
    have hcount : ((s.1.server.lobby.members r).filter fun u =>
        !s.1.server.lobby.SameID i u).count o = 1 :=
      (List.count_filter (p := fun u => !s.1.server.lobby.SameID i u) hstay).trans
        (hcoherent.count_eq_one hmem)
    rw [hleft, (step_news h).2 r, hspawned, List.append_nil, occupants_filter hstays hnpcs,
      view_of_not_enters hs h (hnot o), hnews, replica_leaveNews_of_count hroom hcount,
      hagree r o hmem]
    rfl
  · rw [hother r hr] at ho
    refine hagree.of_same h (hother r hr) (hspawned r) ho ?_
    rw [view_of_not_enters hs h (hnot o), hnews]
    refine replica_leaveNews_of_notMem fun r' hr' => ?_
    obtain rfl := Option.some.inj (hr'.symm.trans hroom)
    exact hcoherent.notMem_of_ne ho hr

/-- An operation that tells nothing. -/
lemma ViewsAgree.of_opNews (hs : s.Marked) (hagree : s.ViewsAgree) (h : s.1.step e = some w')
    {op : Lobby.Op} (hop : s.1.op e = some op) (henters : ∀ u, ¬s.Enters e u)
    (hnews : s.1.opNews op = [])
    (hmembers : (s.1.server.lobby.apply op).members = s.1.server.lobby.members) :
    ViewsAgree (w', s.next e w') := by
  refine hagree.of_quiet hs h henters (by rw [news_of_op hop, hnews]) (spawned_of_op hop)
    fun r => ?_
  rw [members_of_step h, hop, Lobby.applyOption, hmembers]
  rfl

/-- **One step.** Where users enter only from outside rooms and leave only rooms in which nobody
else has their id, and no npc has the number of a slot, the views stay in agreement. -/
theorem ViewsAgree.next (hs : s.Marked) (hrooms : s.1.server.lobby.WellRoomed)
    (hcoherent : s.1.server.lobby.Coherent) (hagree : s.ViewsAgree) (hfrom : s.1.FromOutside e)
    (hnpcs : ∀ i r, (s.1.server.lobby.session i).room = some r →
      ∀ npc ∈ (s.1.server.mRoomList r).mNpcList, npc.mIndex ≠ i)
    (h : s.1.step e = some w') : ViewsAgree (w', s.next e w') := by
  cases hop : s.1.op e with
  | none => exact hagree.of_op_none hs hcoherent h hop
  | some op =>
      have houtside := hfrom op hop
      cases op with
      | connect u => exact hagree.of_opNews hs h hop (not_enters_of_op hop (by simp)) rfl rfl
      | login u userID => exact hagree.of_opNews hs h hop (not_enters_of_op hop (by simp)) rfl rfl
      | enter u r =>
          by_cases hplace : s.1.server.lobby.HasPlace r
          · exact hagree.of_enter hs hcoherent h hop hplace (houtside hplace)
          · exact hagree.of_opNews hs h hop
              (fun v henters => hplace ((enters_iff hop).mp henters).2) (if_neg hplace)
                (by rw [Lobby.apply, if_neg hplace])
      | leave u =>
          cases hroom : (s.1.server.lobby.session u).room with
          | none =>
              refine hagree.of_opNews hs h hop (not_enters_of_op hop (by simp)) ?_ ?_
              · rw [opNews, leaveNews, hroom]
              · rw [Lobby.apply, Lobby.leaveRoom_of_none hroom]
          | some r =>
              refine hagree.of_leaves hs hcoherent h hroom (hnpcs u r hroom) (houtside r hroom)
                (not_enters_of_op hop (by simp)) (spawned_of_op hop) (news_of_op hop) fun r' => ?_
              rw [members_of_step h, hop]
              rfl
      | disconnect u =>
          by_cases hstate : (s.1.server.lobby.session u).state = .room
          · obtain ⟨r, hroom⟩ := Option.isSome_iff_exists.mp ((hrooms u).2 hstate)
            refine hagree.of_leaves hs hcoherent h hroom (hnpcs u r hroom)
              (houtside hstate r hroom) (not_enters_of_op hop (by simp)) (spawned_of_op hop)
              ((news_of_op hop).trans (if_pos hstate)) fun r' => ?_
            rw [members_of_step h, hop, Lobby.applyOption,
              Lobby.apply_disconnect_of_room hstate hroom, Lobby.setSession_members,
              Lobby.leaveRoom_of_some hroom]
          · refine hagree.of_opNews hs h hop (not_enters_of_op hop (by simp)) (if_neg hstate) ?_
            cases hnone : (s.1.server.lobby.session u).state with
            | none => rw [Lobby.apply_disconnect_of_none hnone]
            | login => rw [Lobby.apply_disconnect_of_login hnone, Lobby.setSession_members]
            | room => exact absurd hnone hstate

end Entered

/-! ### Clients that follow the protocol -/

/-- The system with the slots that are connected. -/
abbrev Viewed := Entered × List ℕ

end World

/-- Every slot connects, logs in once, enters a room from outside rooms, leaves the room it is in,
and disconnects, and nobody logs in under the id of another who is connected. -/
def Lobby.Follows (L : Lobby) (online : List ℕ) : Lobby.Op → Prop
  | .connect u => u ∉ online ∧ u < 10000
  | .disconnect u => u ∈ online
  | .login u userID => u ∈ online ∧ (L.session u).state = .none ∧
      ∀ v ∈ online, v ≠ u → (L.session v).state ≠ .none → (L.session v).userID ≠ userID
  | .enter u _ => (L.session u).state = .login
  | .leave u => (L.session u).state = .room

instance (L : Lobby) (online : List ℕ) : ∀ op, Decidable (L.Follows online op)
  | .connect u => inferInstanceAs (Decidable (u ∉ online ∧ u < 10000))
  | .disconnect u => inferInstanceAs (Decidable (u ∈ online))
  | .login u userID => inferInstanceAs (Decidable (u ∈ online ∧ (L.session u).state = .none ∧
      ∀ v ∈ online, v ≠ u → (L.session v).state ≠ .none → (L.session v).userID ≠ userID))
  | .enter u _ => inferInstanceAs (Decidable ((L.session u).state = .login))
  | .leave u => inferInstanceAs (Decidable ((L.session u).state = .room))

namespace Lobby

variable {L : Lobby} {online : List ℕ} {op : Lobby.Op}

/-- Who is in a room with another user has an id of its own. -/
lemma NoDoubleLogin.aloneWithID (h : L.NoDoubleLogin) (hcoherent : L.Coherent) {u : ℕ}
    {r : RoomIndex} (hin : L.InRoom u r) : L.AloneWithID u r := by
  intro v hv hid
  by_contra hne
  have hvin := hcoherent.mem_iff.mp hv
  exact h u v (Ne.symm hne) (fun hnone => by cases hin.1.symm.trans hnone)
    (fun hnone => by cases hvin.1.symm.trans hnone) hid

/-- Who follows the protocol comes from outside rooms, and leaves alone. -/
lemma Follows.fromOutside (h : L.Follows online op) (hcoherent : L.Coherent)
    (hids : L.NoDoubleLogin) (honline : ∀ u, L.Active u → u ∈ online) : L.FromOutside op := by
  cases op with
  | connect u =>
      exact fun hroom => h.1 (honline u fun hnone => by cases hroom.symm.trans hnone)
  | disconnect u => exact fun hroom r hr => hids.aloneWithID hcoherent ⟨hroom, hr⟩
  | login u userID => exact fun hroom => by cases h.2.1.symm.trans hroom
  | enter u r => exact fun _ hroom => by cases Eq.trans (Eq.symm h) hroom
  | leave u => exact fun r hr => hids.aloneWithID hcoherent ⟨h, hr⟩

/-- Who follows the protocol takes a free id. -/
lemma Follows.takesFreeID (h : L.Follows online op) (honline : ∀ u, L.Active u → u ∈ online) :
    L.TakesFreeID op := by
  cases op with
  | login u userID => exact fun v hv hactive => h.2.2 v (honline v hactive) hv hactive
  | enter u r => exact fun _ hnone => absurd (fun hs => by cases hs.symm.trans h) hnone
  | _ => trivial

/-- Who follows the protocol is connected, unless it connects now. -/
lemma Follows.user_mem (h : L.Follows online op) (honline : ∀ u, L.Active u → u ∈ online)
    (hconnect : ∀ u, op ≠ .connect u) : op.user ∈ online := by
  cases op with
  | connect u => exact absurd rfl (hconnect u)
  | disconnect u => exact h
  | login u userID => exact h.1
  | enter u r => exact honline u fun hnone => by cases hnone.symm.trans h
  | leave u => exact honline u fun hnone => by cases hnone.symm.trans h

end Lobby

namespace World.Viewed

variable (s : Viewed)

/-- The slots that are connected after an event. -/
def next (e : Event) (_ : Entered) : List ℕ :=
  match s.1.1.op e with
  | some (.connect u) => u :: s.2
  | some (.disconnect u) => s.2.filter (· ≠ u)
  | _ => s.2

/-- A step of the system and its histories. -/
def step : Viewed → Event → Option Viewed := Runs.withHistory Entered.step next

/-- The start of the server. -/
def init (maxClient : ℕ) (memory : ℕ → View) (store : Store) : Viewed :=
  (Entered.init maxClient memory store, [])

/-- The operation of the event follows the protocol. -/
def Protocol (s : Viewed) (e : Event) : Prop :=
  ∀ op, s.1.1.op e = some op → s.1.1.server.lobby.Follows s.2 op

instance (s : Viewed) (e : Event) : Decidable (s.Protocol e) :=
  inferInstanceAs (Decidable (∀ op ∈ s.1.1.op e, s.1.1.server.lobby.Follows s.2 op))

/-- What the protocol keeps besides the views. -/
structure Settled : Prop where
  wellRoomed : s.1.1.server.lobby.WellRoomed
  coherent : s.1.1.server.lobby.Coherent
  noDoubleLogin : s.1.1.server.lobby.NoDoubleLogin
  online : ∀ u, s.1.1.server.lobby.Active u → u ∈ s.2
  slots : ∀ u ∈ s.2, u < 10000
  npcsAbove : s.1.NpcsAbove
  marked : s.1.Marked

variable {s} {s' : Viewed} {e : Event}

/-- A step of the system with its histories is a step of the system. -/
lemma step_eq (h : s.step e = some s') : ∃ w', s.1.1.step e = some w' ∧
    s' = ((w', s.1.next e w'), s.next e (w', s.1.next e w')) := by
  obtain ⟨t, ht, rfl⟩ := Option.map_eq_some_iff.mp h
  obtain ⟨w', hw', rfl⟩ := Option.map_eq_some_iff.mp ht
  exact ⟨w', hw', rfl⟩

/-- Who is logged in after an event is connected. -/
lemma Settled.online_next (hs : s.Settled) (hprotocol : s.Protocol e) (t : Entered) {u : ℕ}
    (hu : (s.1.1.server.lobby.applyOption (s.1.1.op e)).Active u) : u ∈ s.next e t := by
  rw [next]
  cases hop : s.1.1.op e with
  | none =>
      rw [hop] at hu
      exact hs.online u hu
  | some op =>
      rw [hop] at hu
      replace hu : (s.1.1.server.lobby.apply op).Active u := hu
      have hbefore : u ∈ s.2 ∨ u = op.user := by
        by_cases hne : u = op.user
        · exact .inr hne
        · rw [Lobby.Active, Lobby.session_apply_of_ne hne] at hu
          exact .inl (hs.online u hu)
      cases op with
      | connect v => exact List.mem_cons.mpr hbefore.symm
      | disconnect v =>
          have hne : u ≠ v := fun heq =>
            (heq ▸ hu) (Lobby.state_apply_disconnect hs.wellRoomed v)
          exact List.mem_filter.mpr ⟨hbefore.resolve_right hne, decide_eq_true hne⟩
      | _ =>
          refine hbefore.elim id fun heq => heq ▸ ?_
          exact Lobby.Follows.user_mem (hprotocol _ hop) hs.online (by simp)

/-- The slots that are connected after an event are small. -/
lemma Settled.slots_next (hs : s.Settled) (hprotocol : s.Protocol e) (t : Entered) :
    ∀ u ∈ s.next e t, u < 10000 := by
  intro u hu
  rw [next] at hu
  split at hu
  · rename_i v hop
    rcases List.mem_cons.mp hu with rfl | hold
    · exact (hprotocol _ hop).2
    · exact hs.slots u hold
  · exact hs.slots u (List.mem_filter.mp hu).1
  · exact hs.slots u hu

/-- A step that follows the protocol keeps all that. -/
lemma Settled.next (hs : s.Settled) (hprotocol : s.Protocol e) (h : s.step e = some s') :
    s'.Settled := by
  obtain ⟨w', hw', rfl⟩ := step_eq h
  have hlobby := step_lobby hw'
  have hkept : w'.server.lobby.WellRoomed ∧ w'.server.lobby.Coherent ∧
      w'.server.lobby.NoDoubleLogin := by
    rw [hlobby]
    cases hop : s.1.1.op e with
    | none => exact ⟨hs.wellRoomed, hs.coherent, hs.noDoubleLogin⟩
    | some op =>
        have hfollows := hprotocol op hop
        exact ⟨hs.wellRoomed.apply op,
          (Lobby.coherent_apply_iff hs.wellRoomed hs.coherent op).mpr
            (hfollows.fromOutside hs.coherent hs.noDoubleLogin hs.online),
          (Lobby.noDoubleLogin_apply_iff hs.wellRoomed hs.noDoubleLogin op).mpr
            (hfollows.takesFreeID hs.online)⟩
  refine ⟨hkept.1, hkept.2.1, hkept.2.2, fun u hu => ?_,
    hs.slots_next hprotocol (w', s.1.next e w'),
    Entered.npcsAbove_next hs.npcsAbove hw', Entered.marked_next hs.marked hw'⟩
  rw [show (((w', s.1.next e w'), s.next e (w', s.1.next e w')) : Viewed).1.1.server.lobby = _ from
    hlobby] at hu
  exact hs.online_next hprotocol (w', s.1.next e w') hu

/-- **One step** of a client that follows the protocol keeps the views in agreement. -/
lemma Settled.viewsAgree_next (hs : s.Settled) (hagree : s.1.ViewsAgree) (hprotocol : s.Protocol e)
    {w' : World} (h : s.1.1.step e = some w') : Entered.ViewsAgree (w', s.1.next e w') := by
  refine hagree.next hs.marked hs.wellRoomed hs.coherent (fun op hop =>
    (hprotocol op hop).fromOutside hs.coherent hs.noDoubleLogin hs.online)
      (fun i r hroom npc hnpc => ?_) h
  have hactive : s.1.1.server.lobby.Active i := fun hnone => by
    cases ((hs.wellRoomed i).1 hnone).symm.trans hroom
  have hslot := hs.slots i (hs.online i hactive)
  have habove := hs.npcsAbove r npc hnpc
  omega

lemma settled_init (maxClient : ℕ) (memory : ℕ → View) (store : Store) :
    (init maxClient memory store).Settled where
  wellRoomed := Lobby.wellRoomed_empty
  coherent := Lobby.coherent_empty
  noDoubleLogin := fun _ _ _ hu => absurd rfl hu
  online := fun _ hu => absurd rfl hu
  slots := fun _ hu => by cases hu
  npcsAbove := fun _ _ hnpc => by cases hnpc
  marked := fun _ => Nat.zero_le _

/-- **Views of membership agree.** In every run in which every slot connects, logs in, enters and
leaves rooms and disconnects in that order, under ids of their own, every member of a room knows,
from what it has been sent since it entered, exactly the users and the npcs of the room. -/
theorem viewsAgree_of_protocol (maxClient : ℕ) (memory : ℕ → View) (store : Store)
    (es : List Event) (h : Runs.Along step Protocol (init maxClient memory store) es) :
    Runs.Always step (fun s => s.1.ViewsAgree) (init maxClient memory store) es := by
  refine (Runs.always_of_along (P := fun s => s.Settled ∧ s.1.ViewsAgree) (fun s e s' hs hprotocol
    hstep => ?_) ⟨settled_init maxClient memory store, fun _ _ ho => by cases ho⟩ h).mono
    fun _ hs => hs.2
  refine ⟨hs.1.next hprotocol hstep, ?_⟩
  obtain ⟨w', hw', rfl⟩ := step_eq hstep
  exact hs.1.viewsAgree_next hs.2 hprotocol hw'

/-- `a` and `c` enter room 0, `a` makes an npc, and `c` leaves again. -/
def meetAndPart : List Event :=
  enterFirstRoom ++ [.connect 1, .systemPacket {}] ++ Event.login 1 [99] [98] ++
    Event.request 1 (roomEnterRequestPacket 0) ++
    [.receive 0 (chunk (roomChatRequestPacket npcCommand)),
      .receive 0 (chunk ((roomChatRequestPacket npcCommand).drop maxSockRecvBuf)),
      .clientPacket {}] ++
    Event.request 1 roomLeaveRequestPacket

/-- All along this run the views agree. -/
theorem viewsAgree_meetAndPart :
    Runs.Always step (fun s => s.1.ViewsAgree)
      (init 3 (fun _ _ => 0) twoUsers) meetAndPart :=
  viewsAgree_of_protocol 3 (fun _ _ => 0) twoUsers meetAndPart
    (by decide +kernel)

end World.Viewed

end CKGameServer
