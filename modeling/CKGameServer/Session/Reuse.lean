import CKGameServer.Lobby.Refinement
import CKGameServer.Model.Client
import CKGameServer.Session.Tasks

/-!
A slot that is used again (`Actor::Init`, `Actor::Clear`, `User::Clear`, `ProcessUserConnect`).

`ProcessUserConnect` clears the user it finds at the index of the new connection. `Clear` of the
two classes resets the id, the room, the domain state and the cursors; the position, the rotation
and the inventory stay as the session before left them.

* `User.Fresh`: the user is as `Init` leaves it, up to the bytes in its block.
* `User.Untouched`: what `Clear` passes over is as `Init` leaves it.
* `World.slotReuse_iff`: every connect of a run gives a fresh user exactly if it finds what `Clear`
  passes over untouched; two histories of a slot lead to the same state exactly if they leave it
  alike.
* `World.inventory_carried_over`: the next player of a slot has the inventory of the one before.
-/

namespace CKGameServer

open Memory

namespace User

/-- A user as `Init` leaves it, with a block that holds `memory`. -/
def init (memory : View) : User := { recv := { mPakcetDataBuffer := memory } }

/-- Id, room, domain state, cursors, position, rotation and inventory are those of a new user. -/
def Fresh (u : User) : Prop := u = init u.recv.mPakcetDataBuffer

/-- What `User::Clear` does not reset is as in a new user. -/
structure Untouched (u : User) : Prop where
  position : u.position = ⟨5, 2, 5⟩
  rotation : u.rotation = ⟨0, 0, 0, 0⟩
  mInventory : u.mInventory = fun _ => 0

/-- Two users agree in everything that `User::Clear` does not reset. -/
structure SameRemains (u v : User) : Prop where
  position : u.position = v.position
  rotation : u.rotation = v.rotation
  mInventory : u.mInventory = v.mInventory
  mPakcetDataBuffer : u.recv.mPakcetDataBuffer = v.recv.mPakcetDataBuffer

/-- Two cleared users are the same exactly if they agreed in what is not cleared. -/
lemma clear_eq_clear_iff {u v : User} : u.clear = v.clear ↔ u.SameRemains v := by
  constructor
  · intro h
    exact ⟨congrArg (·.position) h, congrArg (·.rotation) h, congrArg (·.mInventory) h,
      congrArg (·.recv.mPakcetDataBuffer) h⟩
  · rintro ⟨hposition, hrotation, hinventory, hblock⟩
    simp only [clear, modActor, Actor.clear, RecvBuffer.clear]
    rw [hposition, hrotation, hinventory, hblock]

/-- A cleared user is fresh exactly if what is not cleared was untouched. -/
lemma fresh_clear_iff {u : User} : u.clear.Fresh ↔ u.Untouched := by
  have hinit : (init u.recv.mPakcetDataBuffer).clear = init u.recv.mPakcetDataBuffer := rfl
  rw [Fresh, show u.clear.recv.mPakcetDataBuffer = u.recv.mPakcetDataBuffer from rfl, ← hinit,
    clear_eq_clear_iff]
  exact ⟨fun h => ⟨h.position, h.rotation, h.mInventory⟩,
    fun h => ⟨h.position, h.rotation, h.mInventory, rfl⟩⟩

end User

namespace World

/-- Every `ProcessUserConnect` leaves a fresh user. -/
def ReusesFresh (w : World) (e : Event) : Prop :=
  ∀ i w', w.op e = some (.connect i) → w.step e = some w' → (w'.server.mUserObjPool i).Fresh

/-- Every `ProcessUserConnect` finds a user whose position, rotation and inventory are untouched. -/
def FindsUntouched (w : World) (e : Event) : Prop :=
  ∀ i, w.op e = some (.connect i) → (w.server.mUserObjPool i).Untouched

/-- The state with another user at an index: what another history of that slot leaves. -/
def setUser (w : World) (i : ℕ) (u : User) : World :=
  { w with server := w.server.modUser i fun _ => u }

section Connect

variable {w w' : World} {e : Event} {i : ℕ}

lemma op_eq_connect_iff :
    w.op e = some (.connect i) ↔
      ∃ p, w.call e = some (.processUserConnect, p) ∧ p.clientIndex = i := by
  constructor
  · intro h
    obtain ⟨⟨handler, p⟩, hcall, hop⟩ := Option.bind_eq_some_iff.mp h
    refine ⟨p, ?_⟩
    cases handler with
    | processUserConnect =>
        have hindex : p.clientIndex = i := by simpa [Handler.op] using hop
        exact ⟨hcall, hindex⟩
    | processLoginDBResult =>
        simp only [Handler.op] at hop
        split at hop <;> cases hop
    | processEnterRoom => simp [Handler.op] at hop
    | _ => simp [Handler.op] at hop
  · rintro ⟨p, hcall, rfl⟩
    rw [op, hcall]
    rfl

/-- A connect clears the user it finds. -/
lemma step_of_connect (hop : w.op e = some (.connect i)) (h : w.step e = some w') :
    ∃ u : User, w'.server.mUserObjPool i = u.clear ∧ u.toActor = (w.server.mUserObjPool i).toActor ∧
      u.mInventory = (w.server.mUserObjPool i).mInventory := by
  obtain ⟨p, hcall, rfl⟩ := op_eq_connect_iff.mp hop
  obtain ⟨σ, hσ, ⟨hnone, -⟩ | ⟨handler, q, env, hsome, hrun⟩⟩ := step_cases h
  · cases hnone.symm.trans hcall
  · obtain ⟨rfl, rfl⟩ := Prod.mk.inj (Option.some.inj (hsome.symm.trans hcall))
    have hpool : w'.server = σ.modUser q.clientIndex User.clear := (Except.ok.inj hrun).symm
    refine ⟨σ.mUserObjPool q.clientIndex, ?_, hσ.toActor _, hσ.mInventory _⟩
    rw [hpool, Server.modUser_mUserObjPool, Function.update_self]

/-- **One connect**: it leaves a fresh user exactly if it finds an untouched one. -/
lemma reusesFresh_iff (w : World) (e : Event) : w.ReusesFresh e ↔ w.FindsUntouched e := by
  have huntouched : ∀ {u v : User}, u.toActor = v.toActor → u.mInventory = v.mInventory →
      (u.Untouched ↔ v.Untouched) := fun hactor hinventory =>
    ⟨fun h => ⟨hactor ▸ h.position, hactor ▸ h.rotation, hinventory ▸ h.mInventory⟩,
      fun h => ⟨hactor ▸ h.position, hactor ▸ h.rotation, hinventory ▸ h.mInventory⟩⟩
  constructor
  · intro h i hop
    obtain ⟨w', hstep⟩ := exists_step_of_op hop
    obtain ⟨u, hclear, hactor, hinventory⟩ := step_of_connect hop hstep
    have hfresh := h i w' hop hstep
    rw [hclear, User.fresh_clear_iff] at hfresh
    exact (huntouched hactor hinventory).mp hfresh
  · intro h i w' hop hstep
    obtain ⟨u, hclear, hactor, hinventory⟩ := step_of_connect hop hstep
    rw [hclear, User.fresh_clear_iff]
    exact (huntouched hactor hinventory).mpr (h i hop)

/-! ### Two histories of a slot -/

/-- The step of a connect. -/
lemma step_systemPacket_of_connect {env : Env}
    (hop : w.op (.systemPacket env) = some (.connect i)) :
    w.step (.systemPacket env) =
      some { w with server := w.server.systemPacket.2.modUser i User.clear } := by
  obtain ⟨p, hcall, rfl⟩ := op_eq_connect_iff.mp hop
  obtain ⟨hpacket, hfind⟩ := call_eq_some_iff.mp hcall
  have htaken : w.server.systemPacket = (some p, w.server.systemPacket.2) :=
    Prod.ext hpacket rfl
  rw [step, htaken, Server.dispatch, processRecvPacket, hfind]
  rfl

/-- Which system packet comes next does not depend on a user. -/
lemma op_setUser {env : Env} (u : User) (hop : w.op (.systemPacket env) = some (.connect i)) :
    (w.setUser i u).op (.systemPacket env) = some (.connect i) := by
  obtain ⟨p, hcall, rfl⟩ := op_eq_connect_iff.mp hop
  obtain ⟨hpacket, hfind⟩ := call_eq_some_iff.mp hcall
  have hpacket' : w.server.systemPacket.1 = some p := hpacket
  rw [Server.systemPacket, Server.dequeSystemPacketData] at hpacket'
  refine op_eq_connect_iff.mpr ?_
  cases hq : w.server.mSystemPacketQueue with
  | nil =>
      rw [hq] at hpacket'
      cases hpacket'
  | cons q rest =>
      rw [hq] at hpacket'
      simp only at hpacket'
      split at hpacket'
      · rename_i hid
        obtain rfl := Option.some.inj hpacket'
        refine ⟨(w.setUser q.clientIndex u).server.recvPacket q, ?_, rfl⟩
        refine call_eq_some_iff.mpr ⟨?_, hfind⟩
        show (w.setUser q.clientIndex u).server.systemPacket.1 = _
        rw [Server.systemPacket, Server.dequeSystemPacketData]
        simp only [setUser, Server.modUser_mSystemPacketQueue, Server.recvPacket, hq]
        rw [if_pos hid]
        rfl
      · cases hpacket'

/-- A user is replaced before or after the packet is taken. -/
lemma systemPacket_setUser (w : World) (i : ℕ) (u : User) :
    (w.setUser i u).server.systemPacket.2 = w.server.systemPacket.2.modUser i fun _ => u := by
  rw [Server.systemPacket, Server.systemPacket, Server.dequeSystemPacketData,
    Server.dequeSystemPacketData]
  simp only [setUser, Server.modUser_mSystemPacketQueue]
  cases w.server.mSystemPacketQueue <;> rfl

/-- **Two histories of a slot** lead to the same state, after the connect of the next session,
exactly if they leave alike what `Clear` passes over. -/
lemma step_setUser_iff {env : Env} (u : User) (hop : w.op (.systemPacket env) = some (.connect i)) :
    (w.setUser i u).step (.systemPacket env) = w.step (.systemPacket env) ↔
      u.SameRemains (w.server.mUserObjPool i) := by
  have huser : w.server.systemPacket.2.mUserObjPool i = w.server.mUserObjPool i :=
    congrFun w.server.queues_systemPacket.2.2.1 i
  rw [step_systemPacket_of_connect hop, step_systemPacket_of_connect (op_setUser u hop),
    systemPacket_setUser, ← huser, ← User.clear_eq_clear_iff, Option.some.injEq]
  constructor
  · intro h
    have hpool := congrArg (fun w : World => w.server.mUserObjPool i) h
    simpa using hpool
  · intro h
    simp only [setUser, Server.modUser, Function.update_self, Function.update_idem, h]

end Connect

/-- **A slot that is used again.** In any run from the start of the server every
`ProcessUserConnect` leaves a fresh user exactly if it finds the position, the rotation and the
inventory of its user untouched. Two states that differ in the user of a slot, as two histories of
the slot leave them, become the same by the connect of the next session exactly if the two users
agree in what `Clear` passes over, and then the same events lead to the same state, the packets
sent included. -/
theorem slotReuse_iff (maxClient : ℕ) (memory : ℕ → View) (store : Store) (es : List Event) :
    (Runs.Along step ReusesFresh (init maxClient memory store) es ↔
      Runs.Along step FindsUntouched (init maxClient memory store) es) ∧
    ∀ (w : World) (env : Env) (i : ℕ) (u : User), w.op (.systemPacket env) = some (.connect i) →
      ((w.setUser i u).step (.systemPacket env) = w.step (.systemPacket env) ↔
        u.SameRemains (w.server.mUserObjPool i)) ∧
      (u.SameRemains (w.server.mUserObjPool i) → ∀ es,
        Runs.run step (w.setUser i u) (.systemPacket env :: es) =
          Runs.run step w (.systemPacket env :: es)) := by
  refine ⟨Runs.along_iff_along (P := fun _ => True) (fun w e _ => reusesFresh_iff w e)
    (fun _ _ _ _ _ _ => trivial) es trivial, fun w env i u hop => ⟨step_setUser_iff u hop, ?_⟩⟩
  intro hsame es
  rw [Runs.run_cons, Runs.run_cons, (step_setUser_iff u hop).mpr hsame]

/-- `a` logs in, is given its first items and disconnects; then somebody else connects. -/
def reconnect : List Event :=
  [.connect 0, .systemPacket {}] ++ Event.login 0 [97] [98] ++
    [.close 0, .systemPacket {}, .connect 0]

/-- The new user of slot 0 has an item before it has logged in. -/
theorem inventory_carried_over :
    ¬∀ (maxClient : ℕ) (memory : ℕ → View) (store : Store) (es : List Event),
      Runs.Along step ReusesFresh (init maxClient memory store) es := by
  intro h
  have hrun : (Runs.run step (init 3 (fun _ _ => 0) twoUsers) reconnect).bind
      (fun w => (w.step (.systemPacket {})).map fun w' =>
        ((w'.server.mUserObjPool 0).mInventory ⟨0, Nat.succ_pos _⟩)) = some 101 := by decide +kernel
  obtain ⟨w, hw, hstep⟩ := Option.bind_eq_some_iff.mp hrun
  obtain ⟨w', hw', hitem⟩ := Option.map_eq_some_iff.mp hstep
  have hop : (Runs.run step (init 3 (fun _ _ => 0) twoUsers) reconnect).map
      (fun w => (w.call (.systemPacket {})).map fun c => (c.1, c.2.clientIndex)) =
      some (some (.processUserConnect, 0)) := by decide +kernel
  rw [hw, Option.map_some, Option.some.injEq] at hop
  obtain ⟨⟨handler, p⟩, hcall, heq⟩ := Option.map_eq_some_iff.mp hop
  obtain ⟨rfl, hindex⟩ := Prod.mk.inj heq
  have hfresh := (h 3 (fun _ _ => 0) twoUsers
    (reconnect ++ Event.systemPacket {} :: [])).of_run hw 0 w'
      (op_eq_connect_iff.mpr ⟨p, hcall, hindex⟩)
    hw'
  rw [hfresh] at hitem
  cases hitem

end World

end CKGameServer
