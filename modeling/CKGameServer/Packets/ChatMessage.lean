import CKGameServer.Packets.Dependence

/-!
What decides a chat message (`PacketManager::ProcessRoomChatMessage`).

* `CommandComplete`: the bytes of a message without an end decide what becomes of the whole.
* `redisReqNotice_alike_iff`, `timeAdd_alike_iff`: when the ways to continue a notice, or a
  command to add time, come to the same.
* `decides_processRoomChatMessage_iff`: a message that fills its structure is decided by its
  packet exactly if it ends within the packet or is complete.
-/

namespace CKGameServer

open Memory

/-! ### Commands without an end -/

/-- The bytes `s` of a message decide the number that `std::stoi` reads at their beginning. -/
def NumberComplete (s : Bytes) : Prop := Decimal.Ended s ∨ stoi s = .error .outOfRange

/-- The bytes of a message that has no end decide what the handler does with the whole of it: a
notice is cut off behind them, and the number to add ends among them. -/
def CommandComplete (known : Bytes) : Prop :=
  (PacketManager.noticeCommand <+: known →
    PacketManager.noticeCommand.length + maxChatMsgSize ≤ known.length) ∧
  (PacketManager.timeAddCommand <+: known → NumberComplete (known.drop 7))

/-- A complete number is not changed by what follows it. -/
lemma stoi_append_of_complete {s : Bytes} (h : NumberComplete s) (t : Bytes) :
    stoi (s ++ t) = stoi s := by
  rcases h with hended | hrange
  · rw [stoi, stoi, Decimal.parse_append_of_ended hended]
  · have hout := hrange
    rw [stoi] at hout
    cases hparse : Decimal.parse s with
    | none => rw [hparse] at hout; cases hout
    | some n =>
        rw [hparse] at hout
        obtain ⟨m, hm, hpos, hneg⟩ := Decimal.parse_append_of_parse hparse t
        have hn : ¬(-2 ^ 31 ≤ n ∧ n < 2 ^ 31) := by
          intro hn
          simp only [if_pos hn] at hout
          cases hout
        have hm' : ¬(-2 ^ 31 ≤ m ∧ m < 2 ^ 31) := by
          rcases lt_trichotomy n 0 with h0 | h0 | h0
          · have := hneg h0
            omega
          · omega
          · have := hpos h0
            omega
        rw [hrange, stoi, hm]
        exact if_neg hm'

/-- `9999999999`, which is no `int`. -/
def nines : Bytes := List.replicate 10 57

/-- A number that is not complete grows out of its range. -/
lemma stoi_append_nines {s : Bytes} (h : ¬Decimal.Ended s) :
    stoi (s ++ nines) = .error .outOfRange := by
  have hdigits : ∀ c ∈ nines, Decimal.isDigit c = true := fun c hc => by
    rw [List.eq_of_mem_replicate hc]
    rfl
  obtain ⟨m, hm, hvalue⟩ := Decimal.exists_parse_append h hdigits (by decide)
  have hnines : Decimal.digitsValue nines = 9999999999 := by decide
  rw [hnines] at hvalue
  rw [stoi, hm]
  exact if_neg (by omega)

/-- A command that is no longer than the known bytes is found in them. -/
lemma prefix_iff_of_continues {known s command : Bytes} (hs : View.Continues known s)
    (hlength : command.length ≤ known.length) : command <+: s ↔ command <+: known :=
  ⟨fun h => List.prefix_of_prefix_length_le h hs.1 hlength, fun h => h.trans hs.1⟩

section

variable {env : Env} {i n : ℕ} {p q : View} {σ : Server} {r : RoomIndex} {known : Bytes}

/-- A notice, in a room. -/
lemma processRoomChatMessage_of_notice
    (hroom : RoomManager.getRoomByNumber (σ.mUserObjPool i).mRoomIndex = some r)
    (hnotice : PacketManager.noticeCommand <+: p.cString packetHeaderLength) :
    PacketManager.processRoomChatMessage env i p σ =
      .ok (PacketManager.redisReqNotice env σ i ((p.cString packetHeaderLength).drop 2)) := by
  have hnpc : ¬PacketManager.npcCommand <+: p.cString packetHeaderLength := by
    obtain ⟨t, ht⟩ := hnotice
    rw [← ht]
    rintro ⟨s, hs⟩
    cases hs
  rw [PacketManager.processRoomChatMessage, hroom]
  simp only [if_neg hnpc, if_pos hnotice, substr_noticeCommand hnotice, bind, Except.bind, pure,
    Except.pure]

/-- Messages with the same text and the same bytes in the array. -/
lemma processRoomChatMessage_of_eq
    (hcmd : q.cString packetHeaderLength = p.cString packetHeaderLength)
    (hmsg : q.read packetHeaderLength (maxChatMsgSize + 1) =
      p.read packetHeaderLength (maxChatMsgSize + 1)) :
    PacketManager.processRoomChatMessage env i q σ =
      PacketManager.processRoomChatMessage env i p σ := by
  rw [PacketManager.processRoomChatMessage, PacketManager.processRoomChatMessage]
  simp only [hcmd, Room.notifyChat, View.read_shift, Nat.add_zero, hmsg]

/-- Messages with the same bytes in the array, of which neither is a notice nor adds time, and
which are the same command, if any. -/
lemma processRoomChatMessage_congr
    (hnpc : PacketManager.npcCommand <+: q.cString packetHeaderLength ↔
      PacketManager.npcCommand <+: p.cString packetHeaderLength)
    (hreset : PacketManager.shopResetCommand <+: q.cString packetHeaderLength ↔
      PacketManager.shopResetCommand <+: p.cString packetHeaderLength)
    (hnotice : ¬PacketManager.noticeCommand <+: q.cString packetHeaderLength ∧
      ¬PacketManager.noticeCommand <+: p.cString packetHeaderLength)
    (htime : ¬PacketManager.timeAddCommand <+: q.cString packetHeaderLength ∧
      ¬PacketManager.timeAddCommand <+: p.cString packetHeaderLength)
    (hmsg : q.read packetHeaderLength (maxChatMsgSize + 1) =
      p.read packetHeaderLength (maxChatMsgSize + 1)) :
    PacketManager.processRoomChatMessage env i q σ =
      PacketManager.processRoomChatMessage env i p σ := by
  rw [PacketManager.processRoomChatMessage, PacketManager.processRoomChatMessage]
  simp only [hnpc, hreset, if_neg hnotice.1, if_neg hnotice.2, if_neg htime.1, if_neg htime.2,
    Room.notifyChat, View.read_shift, Nat.add_zero, hmsg]

/-- The last character of a notice that is not cut off before it. -/
lemma noticeTask_last {noticeMsg : Bytes} (h : maxChatMsgSize ≤ noticeMsg.length)
    {σ' : Server} (hσ' : PacketManager.redisReqNotice env σ i noticeMsg = σ') :
    (σ'.mRequestTask.getLast?.map fun task => task.pData (maxUserIdLen + 1 + 255)) =
      some (noticeMsg.getD 255 0) := by
  have hlength : (noticeMsg.take maxChatMsgSize).length = maxChatMsgSize := by
    rw [List.length_take, Nat.min_eq_left h]
  subst hσ'
  rw [PacketManager.redisReqNotice, Server.pushTask_mRequestTask, List.getLast?_append]
  simp only [List.getLast?_singleton, Option.some_or, Option.map_some,
    Option.some.injEq]
  rw [RedisTask.make_pData_lt (by decide), redisNotice, View.append_apply_add, View.ofCString,
    if_pos (by rw [hlength]; decide)]
  simp only [List.getD_eq_getElem?_getD]
  rw [List.getElem?_take_of_lt (by decide)]

/-- Notices that continue the same bytes are the same if they are cut off behind them, and only
then. -/
lemma redisReqNotice_alike_iff (h0 : (0 : UInt8) ∉ known)
    (hlow : maxChatMsgSize + 1 ≤ known.length)
    (hhigh : known.length < View.cStringLimit) :
    (∀ s t, View.Continues known s → View.Continues known t →
      (Except.ok (PacketManager.redisReqNotice env σ i (s.drop 2)) : Except Fault Server) =
        .ok (PacketManager.redisReqNotice env σ i (t.drop 2))) ↔
      PacketManager.noticeCommand.length + maxChatMsgSize ≤ known.length := by
  constructor
  · intro h
    by_contra hshort
    have hlength : (known.drop 2).length = 255 := by
      rw [List.length_drop]
      simp only [PacketManager.noticeCommand, List.length_cons, List.length_nil,
        maxChatMsgSize] at hshort hlow
      omega
    have hlast : ∀ c : UInt8, c ≠ 0 →
        ∀ σ', PacketManager.redisReqNotice env σ i ((known ++ [c]).drop 2) = σ' →
          (σ'.mRequestTask.getLast?.map fun task => task.pData (maxUserIdLen + 1 + 255)) =
            some c := by
      intro c hc σ' hσ'
      rw [List.drop_append_of_le_length (by rw [maxChatMsgSize] at hlow; omega)] at hσ'
      rw [noticeTask_last (by rw [List.length_append, hlength]; rfl) hσ',
        List.getD_append_right _ _ _ _ (by omega), hlength]
      rfl
    have hcontinues : ∀ c : UInt8, c ≠ 0 → View.Continues known (known ++ [c]) := fun c hc =>
      .of_append h0 (by simpa using hc.symm) (by simpa using hhigh)
    have hsame := Except.ok.inj (h _ _ (hcontinues 1 (by decide)) (hcontinues 2 (by decide)))
    have hone := hlast 1 (by decide) _ hsame
    rw [hlast 2 (by decide) _ rfl] at hone
    exact absurd (Option.some.inj hone) (by decide)
  · intro hlong s t hs ht
    have hcut : ∀ s, View.Continues known s →
        (s.drop 2).take maxChatMsgSize = (known.drop 2).take maxChatMsgSize := by
      rintro s ⟨⟨u, rfl⟩, -⟩
      simp only [PacketManager.noticeCommand, List.length_cons, List.length_nil] at hlong
      rw [List.drop_append_of_le_length (by omega), List.take_append_of_le_length]
      rw [List.length_drop]
      omega
    rw [PacketManager.redisReqNotice, PacketManager.redisReqNotice, hcut s hs, hcut t ht]

/-- Commands to add time that continue the same bytes are the same if the number ends among
them, and only then. -/
lemma timeAdd_alike_iff (h0 : (0 : UInt8) ∉ known) (hlow : 7 ≤ known.length)
    (hhigh : known.length + 10 ≤ View.cStringLimit) (push : Int32 → Server) :
    (∀ s t, View.Continues known s → View.Continues known t →
      (PacketManager.substr s 7 >>= stoi).map push =
        (PacketManager.substr t 7 >>= stoi).map push) ↔
      NumberComplete (known.drop 7) := by
  have hsubstr : ∀ u : Bytes,
      (PacketManager.substr (known ++ u) 7 >>= stoi) = stoi (known.drop 7 ++ u) := by
    intro u
    rw [PacketManager.substr, if_neg (by rw [List.length_append]; omega),
      List.drop_append_of_le_length hlow]
    rfl
  constructor
  · intro h
    by_contra hincomplete
    rw [NumberComplete, not_or] at hincomplete
    obtain ⟨hended, hrange⟩ := hincomplete
    have hsame := h (known ++ nines) (known ++ []) (.of_append h0 (by decide) hhigh)
      (.of_append h0 List.not_mem_nil (Nat.le_of_add_right_le hhigh))
    rw [hsubstr, hsubstr, stoi_append_nines hended, List.append_nil] at hsame
    cases hstoi : stoi (known.drop 7) with
    | ok x => rw [hstoi] at hsame; cases hsame
    | error e =>
        rw [hstoi] at hsame
        obtain rfl := Except.error.inj hsame
        exact hrange hstoi
  · rintro hcomplete s t ⟨⟨u, rfl⟩, -⟩ ⟨⟨w, rfl⟩, -⟩
    rw [hsubstr, hsubstr, stoi_append_of_complete hcomplete, stoi_append_of_complete hcomplete]

/-! ### Messages without an end in the packet -/

section Unended

variable {m : ℕ} (hnul : ¬p.NulTerminated packetHeaderLength m) (hm : maxChatMsgSize + 1 ≤ m)
  (hlimit : m + 10 ≤ View.cStringLimit)
include hnul hm hlimit

/-- A message and the known bytes begin with the same commands. -/
lemma prefix_cString_iff {command : Bytes} (hcommand : command.length ≤ maxChatMsgSize)
    (hq : ∀ k < packetHeaderLength + m, q k = p k) :
    command <+: q.cString packetHeaderLength ↔ command <+: p.read packetHeaderLength m := by
  have hlength : (p.read packetHeaderLength m).length = m := View.read_length _ _
  exact prefix_iff_of_continues (View.continues_cString hnul (by omega) hq) (by omega)

/-- A notice is decided if it is cut off within the packet. -/
lemma decides_notice_iff
    (hroom : RoomManager.getRoomByNumber (σ.mUserObjPool i).mRoomIndex = some r)
    (hnotice : PacketManager.noticeCommand <+: p.read packetHeaderLength m) :
    (p.Decides (packetHeaderLength + m) fun p =>
        PacketManager.processRoomChatMessage env i p σ) ↔
      PacketManager.noticeCommand.length + maxChatMsgSize ≤
        (p.read packetHeaderLength m).length := by
  have hlength : (p.read packetHeaderLength m).length = m := View.read_length _ _
  have hcommand : PacketManager.noticeCommand.length ≤ maxChatMsgSize := by decide
  rw [View.decides_congr fun q hq => processRoomChatMessage_of_notice hroom
      ((prefix_cString_iff hnul hm hlimit hcommand hq).mpr hnotice),
    View.decides_cString_iff (fun s => (Except.ok
      (PacketManager.redisReqNotice env σ i (s.drop 2)) : Except Fault Server)) (by omega),
    or_iff_right hnul]
  exact redisReqNotice_alike_iff (View.zero_notMem_read hnul) (by omega) (by omega)

/-- A command to add time is decided if its number is complete within the packet. -/
lemma decides_timeAdd_iff
    (hroom : RoomManager.getRoomByNumber (σ.mUserObjPool i).mRoomIndex = some r)
    (htime : PacketManager.timeAddCommand <+: p.read packetHeaderLength m) :
    (p.Decides (packetHeaderLength + m) fun p =>
        PacketManager.processRoomChatMessage env i p σ) ↔
      NumberComplete ((p.read packetHeaderLength m).drop 7) := by
  have hlength : (p.read packetHeaderLength m).length = m := View.read_length _ _
  have hcommand : PacketManager.timeAddCommand.length ≤ maxChatMsgSize := by decide
  rw [View.decides_congr fun q hq => processRoomChatMessage_of_timeAdd hroom
      ((prefix_cString_iff hnul hm hlimit hcommand hq).mpr htime),
    View.decides_cString_iff (fun s => (PacketManager.substr s 7 >>= stoi).map
      fun time => σ.pushTask (RedisTask.make 0 .requestShopUpdate 4 (int32Bytes time)
        (env.heap 0))) (by omega),
    or_iff_right hnul]
  rw [maxChatMsgSize] at hm
  exact timeAdd_alike_iff (View.zero_notMem_read hnul) (by omega) (by omega) _

/-- Any other message is decided. -/
lemma decides_otherMessage
    (hnotice : ¬PacketManager.noticeCommand <+: p.read packetHeaderLength m)
    (htime : ¬PacketManager.timeAddCommand <+: p.read packetHeaderLength m) :
    p.Decides (packetHeaderLength + m) fun p =>
      PacketManager.processRoomChatMessage env i p σ := by
  intro q hq
  have hsame : ∀ command : Bytes, command.length ≤ maxChatMsgSize →
      (command <+: q.cString packetHeaderLength ↔ command <+: p.cString packetHeaderLength) :=
    fun command hcommand => (prefix_cString_iff hnul hm hlimit hcommand hq).trans
      (prefix_cString_iff hnul hm hlimit hcommand fun _ _ => rfl).symm
  have hnot : ∀ command : Bytes, command.length ≤ maxChatMsgSize →
      ¬command <+: p.read packetHeaderLength m →
      ¬command <+: q.cString packetHeaderLength ∧ ¬command <+: p.cString packetHeaderLength := by
    intro command hcommand hread
    rw [hsame command hcommand, and_self]
    rwa [prefix_cString_iff hnul hm hlimit hcommand fun _ _ => rfl]
  exact processRoomChatMessage_congr (hsame _ (by decide)) (hsame _ (by decide))
    (hnot _ (by decide) hnotice) (hnot _ (by decide) htime)
    (View.decides_read (Nat.add_le_add_left hm _) q hq)

/-- A message without an end in the packet is decided if it is complete. -/
lemma decides_unended_iff
    (hroom : RoomManager.getRoomByNumber (σ.mUserObjPool i).mRoomIndex = some r) :
    (p.Decides (packetHeaderLength + m) fun p =>
        PacketManager.processRoomChatMessage env i p σ) ↔
      CommandComplete (p.read packetHeaderLength m) := by
  by_cases hnotice : PacketManager.noticeCommand <+: p.read packetHeaderLength m
  · have htime : ¬PacketManager.timeAddCommand <+: p.read packetHeaderLength m := fun h =>
      (not_prefix_of_timeAdd h).2.1 hnotice
    rw [decides_notice_iff hnul hm hlimit hroom hnotice]
    exact ⟨fun h => ⟨fun _ => h, fun h => absurd h htime⟩, fun h => h.1 hnotice⟩
  · by_cases htime : PacketManager.timeAddCommand <+: p.read packetHeaderLength m
    · rw [decides_timeAdd_iff hnul hm hlimit hroom htime]
      exact ⟨fun h => ⟨fun h => absurd h hnotice, fun _ => h⟩, fun h => h.2 htime⟩
    · exact iff_of_true (decides_otherMessage hnul hm hlimit hnotice htime)
        ⟨fun h => absurd h hnotice, fun h => absurd h htime⟩

end Unended

/-- **A chat message in a room** that fills its structure is decided by its packet if it ends
within the packet, or if the command it is ends there. -/
theorem decides_processRoomChatMessage_iff
    (hroom : RoomManager.getRoomByNumber (σ.mUserObjPool i).mRoomIndex = some r)
    (hlow : Request.roomChat.structureSize ≤ n) (hhigh : n ≤ packetDataBufferSize) :
    (p.Decides n fun p => PacketManager.processRoomChatMessage env i p σ) ↔
      p.NulTerminated packetHeaderLength (n - packetHeaderLength) ∨
        CommandComplete (p.read packetHeaderLength (n - packetHeaderLength)) := by
  obtain ⟨m, rfl⟩ : ∃ m, n = packetHeaderLength + m :=
    Nat.exists_eq_add_of_le ((by decide : packetHeaderLength ≤ _).trans hlow)
  have hm : maxChatMsgSize + 1 ≤ m := Nat.le_of_add_le_add_left hlow
  have hlimit : m + 10 ≤ View.cStringLimit := by
    rw [packetDataBufferSize, packetHeaderLength] at hhigh
    rw [View.cStringLimit]
    omega
  rw [Nat.add_sub_cancel_left]
  by_cases hnul : p.NulTerminated packetHeaderLength m
  · refine iff_of_true (fun q hq => processRoomChatMessage_of_eq ?_ ?_) (.inl hnul)
    · exact (View.cString_congr (fun k hk => (hq _ (by omega)).symm) hnul (by omega)).symm
    · exact View.decides_read (Nat.add_le_add_left hm _) q hq
  · rw [or_iff_right hnul]
    exact decides_unended_iff hnul hm hlimit hroom

end

end CKGameServer
