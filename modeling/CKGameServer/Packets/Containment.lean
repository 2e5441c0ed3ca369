import Mathlib.Tactic.Positivity
import CKGameServer.Packets.ChatMessage

/-!
Which requests are decided by their packet (`PacketManager.cpp`, the handlers of requests).

* `decides_processLogin_iff`, `decides_processPlayerMovement`: what decides a login and a
  movement.
* `Request.Contained`: the condition for each request.
* `readsPacketOnly_iff_contained`: a packet that `GetPacket` returned is handled by itself alone
  exactly under this condition.
-/

namespace CKGameServer

open Memory

section

variable {env : Env} {i n : ℕ} {p : View} {σ : Server}

/-! ### Login -/

/-- Whether an id that begins with the bytes `known` is logged in does not depend on how it goes
on. -/
def RegisteredAlike (σ : Server) (known : Bytes) : Prop :=
  (∀ s, View.Continues known s → UserManager.findUserIndexByID σ s = -1) ∨
    ∀ s, View.Continues known s → UserManager.findUserIndexByID σ s ≠ -1

lemma registeredAlike_iff {known : Bytes} :
    RegisteredAlike σ known ↔ ∀ s t, View.Continues known s → View.Continues known t →
      (UserManager.findUserIndexByID σ s = -1) = (UserManager.findUserIndexByID σ t = -1) := by
  constructor
  · rintro (h | h) s t hs ht
    · rw [eq_true (h s hs), eq_true (h t ht)]
    · rw [eq_false (h s hs), eq_false (h t ht)]
  · intro h
    by_cases hsome : ∃ s, View.Continues known s ∧ UserManager.findUserIndexByID σ s = -1
    · obtain ⟨s, hs, hfind⟩ := hsome
      exact .inl fun t ht => (h s t hs ht).mp hfind
    · exact .inr fun s hs hfind => hsome ⟨s, hs, hfind⟩

/-- The task of a login holds the bytes of its packet. -/
lemma loginTask_congr {q : View} (h : ∀ k < loginRequestPacketSize, q k = p k) :
    PacketManager.loginTask env i q = PacketManager.loginTask env i p := by
  have hfield : ∀ k < redisLoginReqSize,
      redisLoginReq (q.shift PacketManager.loginUserID) (q.shift PacketManager.loginUserPW) k =
        redisLoginReq (p.shift PacketManager.loginUserID)
          (p.shift PacketManager.loginUserPW) k := by
    intro k hk
    simp only [redisLoginReqSize, loginRequestPacketSize, maxUserIdLen, maxUserPwLen,
      packetHeaderLength] at hk h
    rw [redisLoginReq, redisLoginReq]
    by_cases hid : k < maxUserIdLen + 1
    · rw [View.append_apply_lt hid, View.append_apply_lt hid]
      exact h _ (by rw [PacketManager.loginUserID, packetHeaderLength]; omega)
    · obtain ⟨j, rfl⟩ := Nat.exists_eq_add_of_le (not_lt.mp hid)
      rw [View.append_apply_add, View.append_apply_add]
      rw [maxUserIdLen] at hk
      exact h _ (by rw [PacketManager.loginUserPW, packetHeaderLength, maxUserIdLen]; omega)
  rw [PacketManager.loginTask, PacketManager.loginTask, RedisTask.make, RedisTask.make]
  congr 1
  funext k
  by_cases hk : k < redisLoginReqSize
  · rw [View.append_apply_lt hk, View.append_apply_lt hk, hfield k hk]
  · rw [View.append, View.append, if_neg hk, if_neg hk]

/-- **A login** is decided by its packet if it is not of the right size, if the server is full,
if an id ends in it, or if the ids that go on behind it are registered alike; and only then. -/
lemma decides_processLogin_iff (env : Env) :
    (p.Decides n fun p => (Except.ok (PacketManager.processLogin env i n p σ) :
        Except Fault Server)) ↔
      n ≠ loginRequestPacketSize ∨ σ.mMaxUserCnt ≤ σ.mCurrentUserCnt ∨
        p.NulTerminated packetHeaderLength (n - packetHeaderLength) ∨
        RegisteredAlike σ (p.read packetHeaderLength (n - packetHeaderLength)) := by
  by_cases hsize : n = loginRequestPacketSize
  · subst hsize
    rw [or_iff_right (not_not.mpr rfl)]
    by_cases hfull : σ.mMaxUserCnt ≤ σ.mCurrentUserCnt
    · refine iff_of_true (fun q _ => ?_) (.inl hfull)
      simp only [PacketManager.processLogin, if_pos hfull]
    · rw [or_iff_right hfull, registeredAlike_iff, ← View.decides_cString_iff
        (fun s => UserManager.findUserIndexByID σ s = -1) (by decide)]
      have hrun : ∀ q : View, PacketManager.processLogin env i loginRequestPacketSize q σ =
          if UserManager.findUserIndexByID σ (q.cString packetHeaderLength) = -1 then
            σ.pushTask (PacketManager.loginTask env i q)
          else σ.sendPacketFunc i (.loginResponse ErrorCode.loginUserAlready.code) := fun q => by
        rw [PacketManager.processLogin, if_neg (not_not.mpr rfl), if_neg hfull]
        rfl
      constructor
      · intro h q hq
        have hsent : ∀ q : View,
            (PacketManager.processLogin env i loginRequestPacketSize q σ).sent.length =
              if UserManager.findUserIndexByID σ (q.cString packetHeaderLength) = -1 then
                σ.sent.length else σ.sent.length + 1 := fun q => by
          rw [hrun]
          split
          · rfl
          · exact List.length_append
        have hsame := congrArg (fun τ : Server => τ.sent.length) (Except.ok.inj (h q hq))
        simp only [hsent] at hsame
        rw [eq_iff_iff]
        split_ifs at hsame with hq' hp' hp'
        · exact iff_of_true hq' hp'
        · omega
        · omega
        · exact iff_of_false hq' hp'
      · intro h q hq
        simp only [hrun, loginTask_congr hq, eq_iff_iff.mp (h q hq)]
  · refine iff_of_true (fun q _ => ?_) (.inl hsize)
    simp only [PacketManager.processLogin, if_pos (Ne.symm hsize)]

/-! ### Movement -/

/-- The bytes of `userUUID` in the packet show that it is not the index of the client. -/
def ForeignUUID (i n : ℕ) (p : View) : Prop :=
  2 ^ 63 ≤ i ∨
    ∃ k < 8, packetHeaderLength + k < n ∧ p (packetHeaderLength + k) ≠ View.ofNatLE i k

/-- The `INT64` of an unsigned number. -/
lemma bmod_eq_natCast_iff {x : ℕ} (hx : x < 2 ^ 64) :
    Int.bmod x (2 ^ 64) = i ↔ i < 2 ^ 63 ∧ x = i := by
  rw [Int.bmod]
  constructor
  · intro h
    split at h <;> omega
  · rintro ⟨hi, rfl⟩
    split <;> omega

lemma int64At_eq_iff {off : ℕ} :
    int64At p off = i ↔ i < 2 ^ 63 ∧ ∀ k < 8, p (off + k) = View.ofNatLE i k := by
  have hlt : p.natLE off 8 < 2 ^ 64 := (View.natLE_lt off 8).trans_eq (by norm_num)
  refine (bmod_eq_natCast_iff hlt).trans (and_congr_right fun hi => ⟨?_, fun hbytes => ?_⟩)
  · rintro rfl k hk
    rw [View.ofNatLE_natLE hk]
  · calc p.natLE off 8 = (View.ofNatLE i).natLE 0 8 :=
          View.natLE_congr fun k hk => by rw [hbytes k hk, Nat.zero_add]
      _ = i := View.natLE_ofNatLE (by omega)

/-- Where the known bytes do not show it, the client's index may stand there. -/
lemma exists_int64At_eq (h : ¬ForeignUUID i n p) :
    ∃ q : View, (∀ k < n, q k = p k) ∧ int64At q packetHeaderLength = i := by
  rw [ForeignUUID, not_or, not_le] at h
  obtain ⟨hi, hbytes⟩ := h
  refine ⟨p.write packetHeaderLength (View.ofNatLE i) 8, fun k hk => ?_, ?_⟩
  · by_cases hfield : packetHeaderLength ≤ k ∧ k < packetHeaderLength + 8
    · obtain ⟨j, rfl⟩ := Nat.exists_eq_add_of_le hfield.1
      rw [View.write_apply_in hfield.1 hfield.2, Nat.add_sub_cancel_left]
      by_contra hne
      exact hbytes ⟨j, by omega, hk, Ne.symm hne⟩
    · exact View.write_apply_out (by omega)
  · refine int64At_eq_iff.mpr ⟨hi, fun k hk => ?_⟩
    rw [View.write_apply_in (by omega) (by omega), Nat.add_sub_cancel_left]

lemma binary32_pos {bits : ℕ} (hlow : 2 ^ 30 ≤ bits) (hhigh : bits < 2 ^ 31) :
    0 < binary32 bits := by
  have hexponent : bits / 2 ^ 23 % 256 ≠ 0 := by omega
  have hsign : bits / 2 ^ 31 = 0 := by omega
  simp only [binary32, if_neg hexponent, if_pos hsign]
  positivity

/-- The highest bit is the sign. -/
lemma binary32_add_sign {bits : ℕ} (h : bits < 2 ^ 31) :
    binary32 (bits + 2 ^ 31) = -binary32 bits := by
  have hmantissa : (bits + 2 ^ 31) % 2 ^ 23 = bits % 2 ^ 23 := by omega
  have hexponent : (bits + 2 ^ 31) / 2 ^ 23 % 256 = bits / 2 ^ 23 % 256 := by omega
  have hsign : bits / 2 ^ 31 = 0 := by omega
  have hsign' : ¬(bits + 2 ^ 31) / 2 ^ 31 = 0 := by omega
  simp only [binary32, hmantissa, hexponent, if_pos hsign, if_neg hsign']

/-- The last byte of a `float` makes a difference. -/
lemma exists_floatAt_ne (p : View) (off : ℕ) :
    ∃ a b : UInt8, floatAt (Function.update p (off + 3) a) off ≠
      floatAt (Function.update p (off + 3) b) off := by
  have hlow : ∀ c : UInt8, View.natLE (Function.update p (off + 3) c) off 4 =
      p.natLE off 3 + 2 ^ 24 * c.toNat := by
    intro c
    have hrest : View.natLE (Function.update p (off + 3) c) off 3 = p.natLE off 3 :=
      View.natLE_congr fun k hk => Function.update_of_ne (by omega) _ _
    rw [View.natLE_succ, hrest, Function.update_self]
    norm_num
  have hlt : p.natLE off 3 < 2 ^ 24 := (View.natLE_lt off 3).trans_eq (by norm_num)
  refine ⟨64, 192, ?_⟩
  have h64 : p.natLE off 3 + 2 ^ 24 * (192 : UInt8).toNat =
      p.natLE off 3 + 2 ^ 24 * (64 : UInt8).toNat + 2 ^ 31 := by
    have h192 : (192 : UInt8).toNat = 192 := rfl
    have h64 : (64 : UInt8).toNat = 64 := rfl
    omega
  have hbits : (64 : UInt8).toNat = 64 := rfl
  rw [floatAt, floatAt, hlow, hlow, h64, binary32_add_sign (by omega)]
  have hpos : 0 < binary32 (p.natLE off 3 + 2 ^ 24 * (64 : UInt8).toNat) :=
    binary32_pos (by omega) (by omega)
  intro heq
  linarith

/-- A movement turns its user as it says. -/
lemma rotation_processPlayerMovement {r : RoomIndex}
    (huuid : int64At p packetHeaderLength = i)
    (hroom : RoomManager.getRoomByNumber (σ.mUserObjPool i).mRoomIndex = some r) :
    ((PacketManager.processPlayerMovement i p σ).mUserObjPool i).rotation =
      quaternionAt p (packetHeaderLength + 16) := by
  rw [PacketManager.processPlayerMovement]
  simp only [huuid, ne_eq, not_true_eq_false, ↓reduceIte, hroom]
  simp [Room.sendToAllUser, Actor.updateMovement]

/-- A movement from no room, or of another client, is ignored. -/
lemma processPlayerMovement_of_ignored {q : View} (hq : ∀ k < n, q k = p k)
    (h : RoomManager.getRoomByNumber (σ.mUserObjPool i).mRoomIndex = none ∨ ForeignUUID i n p) :
    PacketManager.processPlayerMovement i q σ = σ := by
  rw [PacketManager.processPlayerMovement]
  rcases h with hroom | hforeign
  · simp only [hroom, ite_self]
  · refine if_pos fun huuid => ?_
    obtain ⟨hi, hbytes⟩ := int64At_eq_iff.mp huuid
    rcases hforeign with hlarge | ⟨k, hk, hkn, hne⟩
    · omega
    · exact hne (by rw [← hq _ hkn, hbytes k hk])

/-- The whole structure decides a movement. -/
lemma decides_processPlayerMovement (hn : Request.playerMovement.structureSize ≤ n) :
    p.Decides n fun p => PacketManager.processPlayerMovement i p σ := by
  intro q hq
  have hsize : packetHeaderLength + 32 ≤ n := hn
  have hfloat : ∀ off, packetHeaderLength ≤ off → off + 4 ≤ packetHeaderLength + 32 →
      floatAt q off = floatAt p off := fun off _ hoff =>
    congrArg binary32 (View.natLE_congr fun k hk => hq _ (by omega))
  have huuid : int64At q packetHeaderLength = int64At p packetHeaderLength :=
    congrArg (fun x : ℕ => Int.bmod x (2 ^ 64)) (View.natLE_congr fun k hk => hq _ (by omega))
  have hrotation : quaternionAt q (packetHeaderLength + 16) =
      quaternionAt p (packetHeaderLength + 16) := by
    rw [quaternionAt, quaternionAt, hfloat _ (by omega) (by omega), hfloat _ (by omega) (by omega),
      hfloat _ (by omega) (by omega), hfloat _ (by omega) (by omega)]
  simp only [PacketManager.processPlayerMovement, huuid, hrotation,
    hfloat (packetHeaderLength + 8) (by omega) (by omega),
    hfloat (packetHeaderLength + 12) (by omega) (by omega)]

/-- A movement that is too short and may be the client's own is not ignored in every case. -/
lemma exists_processPlayerMovement_ne {r : RoomIndex}
    (hn : n < Request.playerMovement.structureSize)
    (hroom : RoomManager.getRoomByNumber (σ.mUserObjPool i).mRoomIndex = some r)
    (hforeign : ¬ForeignUUID i n p) :
    ∃ q : View, (∀ k < n, q k = p k) ∧ PacketManager.processPlayerMovement i q σ ≠ σ := by
  have hsize : n < packetHeaderLength + 32 := hn
  obtain ⟨q, hq, huuid⟩ := exists_int64At_eq hforeign
  -- the last byte of the rotation stands behind the packet
  obtain ⟨a, b, hne⟩ := exists_floatAt_ne q (packetHeaderLength + 28)
  by_contra hall
  push Not at hall
  have hturned : ∀ c : UInt8, (σ.mUserObjPool i).rotation.w =
      floatAt (Function.update q (packetHeaderLength + 28 + 3) c) (packetHeaderLength + 28) := by
    intro c
    have hother : ∀ k < packetHeaderLength + 31,
        Function.update q (packetHeaderLength + 28 + 3) c k = q k := fun k hk =>
      Function.update_of_ne (by omega) _ _
    have huuid' : int64At (Function.update q (packetHeaderLength + 28 + 3) c)
        packetHeaderLength = i := by
      rw [← huuid]
      exact congrArg (fun x : ℕ => Int.bmod x (2 ^ 64))
        (View.natLE_congr fun k hk => hother _ (by omega))
    have hrun := hall (Function.update q (packetHeaderLength + 28 + 3) c) fun k hk => by
      rw [hother k (by omega), hq k hk]
    have hrotation := rotation_processPlayerMovement huuid' hroom
    rw [hrun] at hrotation
    rw [hrotation]
    rfl
  exact hne ((hturned a).symm.trans (hturned b))

/-! ### Requests that are always answered -/

lemma sent_enterUser (env : Env) (i : ℕ) (σ : Server) (number : ℤ) :
    σ.sent.length ≤ (RoomManager.enterUser env σ number i).2.sent.length := by
  rw [RoomManager.enterUser]
  split
  · exact le_rfl
  · rw [Room.enterUser]
    split
    · exact le_rfl
    · simp

lemma processEnterRoom_ne : PacketManager.processEnterRoom env i p σ ≠ σ := by
  have hanswered : ∀ result, σ.sent.length < (Server.sendPacketFunc
      (RoomManager.enterUser env σ (PacketManager.enterRoomNumber p) i).2 i
        (.roomEnterResponse result)).sent.length := by
    intro result
    have hentered := sent_enterUser env i σ (PacketManager.enterRoomNumber p)
    rw [Server.sendPacketFunc, Server.sendAll_sent, List.length_append, List.length_singleton]
    omega
  have hlt : σ.sent.length < (PacketManager.processEnterRoom env i p σ).sent.length := by
    rw [PacketManager.processEnterRoom]
    simp only
    split
    · exact hanswered _
    · split
      · exact hanswered _
      · refine lt_of_lt_of_le (hanswered (RoomManager.enterUser env σ
          (PacketManager.enterRoomNumber p) i).1) ?_
        rw [Room.notifyUserEnter, Room.sendToAllUser, Server.sendAll_sent, List.length_append]
        exact Nat.le_add_right _ _
  exact fun heq => absurd (congrArg (fun τ : Server => τ.sent.length) heq) hlt.ne'

lemma sendPacketFunc_ne (u : ℕ) (packet : ServerPacket) : σ.sendPacketFunc u packet ≠ σ := by
  intro heq
  have hsent := congrArg (fun τ : Server => τ.sent.length) heq
  simp [Server.sendPacketFunc] at hsent

lemma pushTask_ne (task : RedisTask) : σ.pushTask task ≠ σ := by
  intro heq
  have hqueue := congrArg (fun τ : Server => τ.mRequestTask.length) heq
  simp at hqueue

/-- Every answer to a chat message changes something. -/
lemma ChatAnswer.ne {τ : Server} (h : ChatAnswer env i p σ τ) : τ ≠ σ := by
  cases h with
  | ignored _ => exact sendPacketFunc_ne i _
  | npc r =>
      intro heq
      have hnpcs := congrArg (fun τ : Server => (τ.mRoomList r).mNpcList.length) heq
      simp [Room.enterNpc, Room.notifyUserEnter, Room.sendToAllUser] at hnpcs
  | task task _ => exact pushTask_ne task
  | delivered r =>
      intro heq
      have hsent := congrArg (fun τ : Server => τ.sent.length) heq
      simp [Room.notifyChat, Room.sendToAllUser, Server.sendPacketFunc] at hsent

lemma decides_processEnterRoom (hn : Request.roomEnter.structureSize ≤ n) :
    p.Decides n fun p => PacketManager.processEnterRoom env i p σ := by
  intro q hq
  have hnumber : PacketManager.enterRoomNumber q = PacketManager.enterRoomNumber p :=
    congrArg (fun x : ℕ => (Int32.ofInt x).toInt) (View.decides_natLE hn q hq)
  simp only [PacketManager.processEnterRoom, hnumber]

lemma decides_processTradeRequest (hn : Request.tradeRequest.structureSize ≤ n) :
    p.Decides n fun p => PacketManager.processTradeRequest env i p σ := by
  intro q hq
  have htarget : int64At q packetHeaderLength = int64At p packetHeaderLength :=
    congrArg (fun x : ℕ => Int.bmod x (2 ^ 64)) (View.decides_natLE hn q hq)
  simp only [PacketManager.processTradeRequest, htarget]

end

/-! ### The condition for each request -/

/-- When the handler of a request reads nothing but its packet: a login that is of the right size
and is looked up must end in the packet, or go on in ways that are registered alike; a chat
message in a room must end in it, or be a command that does; a movement must be whole, or be
ignored whatever follows; everything else must be whole. -/
def Request.Contained (request : Request) (σ : Server) (i n : ℕ) (p : View) : Prop :=
  match request with
  | login =>
    n ≠ loginRequestPacketSize ∨ σ.mMaxUserCnt ≤ σ.mCurrentUserCnt ∨
      p.NulTerminated packetHeaderLength (n - packetHeaderLength) ∨
      RegisteredAlike σ (p.read packetHeaderLength (n - packetHeaderLength))
  | roomChat =>
    roomChat.structureSize ≤ n ∧
      (RoomManager.getRoomByNumber (σ.mUserObjPool i).mRoomIndex = none ∨
        p.NulTerminated packetHeaderLength (n - packetHeaderLength) ∨
        CommandComplete (p.read packetHeaderLength (n - packetHeaderLength)))
  | playerMovement =>
    playerMovement.structureSize ≤ n ∨
      RoomManager.getRoomByNumber (σ.mUserObjPool i).mRoomIndex = none ∨ ForeignUUID i n p
  | roomEnter => roomEnter.structureSize ≤ n
  | shopBuy => shopBuy.structureSize ≤ n
  | tradeRequest => tradeRequest.structureSize ≤ n

section

variable {env : Env} {i n : ℕ} {p : View} {σ : Server}

/-- A request that is answered in every case has to be whole. -/
lemma answered_iff {β : Type} {size : ℕ} {f : View → β} {b : β} (hne : f p ≠ b) :
    (p.Decides n f ∧ (n < size → f p = b)) ↔ size ≤ n ∧ p.Decides n f := by
  constructor
  · rintro ⟨hdecides, hrejects⟩
    refine ⟨?_, hdecides⟩
    by_contra hshort
    exact hne (hrejects (by omega))
  · rintro ⟨hwhole, hdecides⟩
    exact ⟨hdecides, fun hshort => by omega⟩

/-- **What the handler of a request reads.** -/
theorem Request.contained_iff (request : Request) (hn : n ≤ packetDataBufferSize) :
    ((p.Decides n fun p => request.handler.run env i n p σ) ∧
      (n < request.structureSize → request.handler.run env i n p σ = .ok σ)) ↔
      request.Contained σ i n p := by
  cases request with
  | login =>
      rw [Contained, ← decides_processLogin_iff env]
      refine and_iff_left fun hshort => congrArg Except.ok ?_
      exact if_pos (show loginRequestPacketSize ≠ n from hshort.ne')
  | roomEnter =>
      refine (answered_iff fun h => processEnterRoom_ne (Except.ok.inj h)).trans ?_
      exact and_iff_left_of_imp fun h => (decides_processEnterRoom h).comp Except.ok
  | roomChat =>
      refine (answered_iff fun h => (chatAnswer_of_ok h).ne rfl).trans
        (and_congr_right fun hwhole => ?_)
      cases hroom : RoomManager.getRoomByNumber (σ.mUserObjPool i).mRoomIndex with
      | none =>
          refine iff_of_true (fun q _ => ?_) (.inl rfl)
          simp only [Request.handler, Handler.run, PacketManager.processRoomChatMessage, hroom]
      | some r =>
          rw [or_iff_right (Option.some_ne_none r)]
          exact decides_processRoomChatMessage_iff hroom hwhole hn
  | playerMovement =>
      by_cases hwhole : playerMovement.structureSize ≤ n
      · exact iff_of_true ⟨(decides_processPlayerMovement hwhole).comp Except.ok, fun h => by omega⟩
          (.inl hwhole)
      · rw [Contained, or_iff_right hwhole]
        constructor
        · rintro ⟨hdecides, hrejects⟩
          by_contra hnot
          rw [not_or] at hnot
          obtain ⟨r, hroom⟩ := Option.ne_none_iff_exists'.mp hnot.1
          obtain ⟨q, hq, hne⟩ := exists_processPlayerMovement_ne (by omega) hroom hnot.2
          exact hne (Except.ok.inj ((hdecides q hq).trans (hrejects (by omega))))
        · intro h
          have hignored := fun q hq => processPlayerMovement_of_ignored (q := q) (n := n) hq h
          exact ⟨fun q hq => congrArg Except.ok
              ((hignored q hq).trans (hignored p fun _ _ => rfl).symm),
            fun _ => congrArg Except.ok (hignored p fun _ _ => rfl)⟩
  | shopBuy =>
      refine (answered_iff fun h => pushTask_ne _ (Except.ok.inj h)).trans ?_
      exact and_iff_left_of_imp fun _ => View.decides_const _
  | tradeRequest =>
      refine (answered_iff fun h => sendPacketFunc_ne _ _ (Except.ok.inj h)).trans ?_
      exact and_iff_left_of_imp fun h => (decides_processTradeRequest h).comp Except.ok

end

/-! ### The packets of `GetPacket` -/

/-- A packet taken from a buffer lies in its block. -/
lemma RecvBuffer.getPacket_in_block {b : RecvBuffer} (hb : b.CursorsInBounds)
    (hid : b.getPacket.1.packetId ≠ 0) :
    (∃ off, b.getPacket.1.pDataPtr = some off) ∧
      b.getPacket.1.dataSize ≤ packetDataBufferSize := by
  rw [getPacket] at hid ⊢
  split_ifs at hid ⊢ with hheader hlength
  · exact absurd rfl hid
  · exact absurd rfl hid
  · refine ⟨⟨_, rfl⟩, ?_⟩
    have hfits : packetLengthAt b.packetPtr 0 ≤ b.remainByte := not_lt.mp hlength
    have hblock : b.remainByte ≤ packetDataBufferSize := by
      rw [remainByte]
      exact (Nat.sub_le _ _).trans hb.2
    exact hfits.trans hblock

/-- The packet the process thread takes is one its user's buffer returned. -/
lemma Server.dequePacketData_in_block {σ : Server}
    (hcursors : ∀ i, (σ.mUserObjPool i).recv.CursorsInBounds)
    (hid : σ.dequePacketData.1.packetId ≠ 0) :
    (∃ off, σ.dequePacketData.1.pDataPtr = some off) ∧
      σ.dequePacketData.1.dataSize ≤ packetDataBufferSize := by
  rw [dequePacketData] at hid ⊢
  cases hqueue : σ.mInComingPacketUserIndex with
  | nil =>
      rw [hqueue] at hid
      exact absurd rfl hid
  | cons i rest =>
      rw [hqueue] at hid
      exact RecvBuffer.getPacket_in_block (hcursors i) hid

lemma Request.packetId_ne_zero (request : Request) : request.packetId.code ≠ 0 := by
  cases request <;> decide

/-- **A request is handled by its packet alone**, in every state of the server and for every
packet that `GetPacket` returns, exactly under the condition for the request. -/
theorem readsPacketOnly_iff_contained (env : Env) (request : Request) (σ : Server)
    (hcursors : ∀ i, (σ.mUserObjPool i).recv.CursorsInBounds)
    (hid : σ.dequePacketData.1.packetId = request.packetId.code) :
    σ.dequePacketData.2.ReadsPacketOnly env request σ.dequePacketData.1 ↔
      request.Contained σ.dequePacketData.2 σ.dequePacketData.1.clientIndex
        σ.dequePacketData.1.dataSize (σ.dequePacketData.2.packetView σ.dequePacketData.1) := by
  obtain ⟨⟨off, hptr⟩, hblock⟩ := Server.dequePacketData_in_block hcursors
    (hid ▸ request.packetId_ne_zero)
  exact (Server.readsPacketOnly_iff hid hptr).trans (request.contained_iff hblock)

/-- A server that has just received `pData` from its first client. -/
def received (pData : Bytes) : Server where
  mMaxUserCnt := 1
  mUserObjPool _ :=
    { recv := { mPakcetDataBuffer := View.ofBytes pData, mPakcetDataBufferWPos := pData.length } }
  mInComingPacketUserIndex := [0]

lemma cursorsInBounds_received {pData : Bytes} (h : pData.length ≤ packetDataBufferSize) (i : ℕ) :
    ((received pData).mUserObjPool i).recv.CursorsInBounds := ⟨Nat.zero_le _, h⟩

/-- A request to enter a room that is whole is handled by itself alone. -/
theorem roomEnter_reads_packet :
    (received (roomEnterRequestPacket 3)).dequePacketData.2.ReadsPacketOnly {} .roomEnter
      (received (roomEnterRequestPacket 3)).dequePacketData.1 :=
  (readsPacketOnly_iff_contained {} .roomEnter (received (roomEnterRequestPacket 3))
    (cursorsInBounds_received (by decide)) (by decide)).mpr (by
      show 9 ≤ (received (roomEnterRequestPacket 3)).dequePacketData.1.dataSize
      decide)

/-- A request to enter a room of five bytes: the header only. -/
def shortRoomEnter : Bytes := [5, 0, 206, 0, 0]

/-- The number of the room is read behind a packet that holds none. -/
theorem roomEnter_reads_on :
    ¬∀ (env : Env) (request : Request) (σ : Server),
      (∀ i, (σ.mUserObjPool i).recv.CursorsInBounds) →
      σ.dequePacketData.1.packetId = request.packetId.code →
      σ.dequePacketData.2.ReadsPacketOnly env request σ.dequePacketData.1 := by
  intro h
  have hreads := h {} .roomEnter (received shortRoomEnter)
    (cursorsInBounds_received (by decide)) (by decide)
  have hptr : (received shortRoomEnter).dequePacketData.1.pDataPtr = some 0 := by decide
  have hcontained : Request.roomEnter.Contained _ _ _ _ :=
    (Request.contained_iff .roomEnter (by decide)).mp
      ((Server.readsPacketOnly_iff (by decide) hptr).mp hreads)
  have hwhole : 9 ≤ (received shortRoomEnter).dequePacketData.1.dataSize := hcontained
  revert hwhole
  decide

end CKGameServer
