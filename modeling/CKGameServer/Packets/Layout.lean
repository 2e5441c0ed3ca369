import CKGameServer.Library.Layout
import CKGameServer.Model.NetworkClient
import CKGameServer.Model.Packet

/-!
The packets of the server as the client reads them (`Packet.h`, `Packets.cs`, `UnsafeCode.cs`,
`NetworkClient.ReadTcpDataThread`).

The structures of the server are packed. Those of the client that name no `Pack` have the default
of 8, under which a `Vector3` behind an odd number of bytes moves up.

* `FieldType`: the kinds of fields, `wireFormat` their bytes.
* `WirePacket`: the packets with their values, `WirePacket.bytes` what the server sends.
* `ClientStruct`: the structures of the client; `receivePacket` picks one by the id of the header.
* `receivePacket_eq_iff`: the client reads what the server has sent exactly if the packet is no
  `ROOM_USER_INFO_NTF`, or one whose floats repeat every three bytes.
* `spawn_misread`: where a player that has just entered stands, the client reads something else.
-/

namespace CKGameServer

open Memory Layout

/-! ### Fields -/

/-- A string in a `char` array with a terminator. -/
abbrev CString (maxLen : ℕ) := { s : Bytes // (0 : UInt8) ∉ s ∧ s.length ≤ maxLen }

/-- The kinds of fields. A `float` is its 32 bits, and `floats` are those of a `Vector3` or a
`Quaternion`. -/
inductive FieldType where
  | uint8 | uint16 | int16 | int32 | int64 | bool
  | floats (n : ℕ)
  | int32s (n : ℕ)
  | chars (maxLen : ℕ)
  deriving DecidableEq, Repr

namespace FieldType

abbrev Value : FieldType → Type
  | uint8 => UInt8
  | uint16 => UInt16
  | int16 => Int16
  | int32 => Int32
  | int64 => Int64
  | bool => Bool
  | floats n => Fin n → UInt32
  | int32s n => Fin n → Int32
  | chars maxLen => CString maxLen

def size : FieldType → ℕ
  | uint8 => 1
  | uint16 => 2
  | int16 => 2
  | int32 => 4
  | int64 => 8
  | bool => 1
  | floats n => 4 * n
  | int32s n => 4 * n
  | chars maxLen => maxLen + 1

/-- The natural alignment: of an array and of a structure that of what stands in it. -/
def align : FieldType → ℕ
  | uint8 => 1
  | uint16 => 2
  | int16 => 2
  | int32 => 4
  | int64 => 8
  | bool => 1
  | floats _ => 4
  | int32s _ => 4
  | chars _ => 1

/-- The bytes of words of 32 bits. -/
def wordsBytes {n : ℕ} (x : Fin n → UInt32) : View := fun k =>
  if h : k / 4 < n then View.ofNatLE (x ⟨k / 4, h⟩).toNat (k % 4) else 0

/-- The words of 32 bits that a pointer sees. -/
def wordsAt (n : ℕ) (v : View) : Fin n → UInt32 := fun i => UInt32.ofNat (v.natLE (4 * i.val) 4)

/-- The bytes of a value. Behind the terminator of a string stands what stood there before. -/
def encode : (t : FieldType) → t.Value → View → Bytes
  | uint8, x, _ => (View.ofNatLE x.toNat).read 0 1
  | uint16, x, _ => (View.ofNatLE x.toNat).read 0 2
  | int16, x, _ => (View.ofNatLE x.toUInt16.toNat).read 0 2
  | int32, x, _ => (View.ofNatLE x.toUInt32.toNat).read 0 4
  | int64, x, _ => (View.ofNatLE x.toUInt64.toNat).read 0 8
  | bool, x, _ => [if x then 1 else 0]
  | floats n, x, _ => (wordsBytes x).read 0 (4 * n)
  | int32s n, x, _ => (wordsBytes fun i => (x i).toUInt32).read 0 (4 * n)
  | chars maxLen, s, stack => (View.ofCString s.val stack).read 0 (maxLen + 1)

/-- The value a pointer sees. -/
def decode : (t : FieldType) → View → t.Value
  | uint8, v => UInt8.ofNat (v.natLE 0 1)
  | uint16, v => UInt16.ofNat (v.natLE 0 2)
  | int16, v => (UInt16.ofNat (v.natLE 0 2)).toInt16
  | int32, v => (UInt32.ofNat (v.natLE 0 4)).toInt32
  | int64, v => (UInt64.ofNat (v.natLE 0 8)).toInt64
  | bool, v => v 0 != 0
  | floats n, v => wordsAt n v
  | int32s n, v => fun i => (wordsAt n v i).toInt32
  | chars maxLen, v =>
    ⟨v.cStringFrom maxLen 0, View.zero_notMem_cStringFrom _ _, View.length_cStringFrom_le _ _⟩

lemma align_pos (t : FieldType) : 0 < t.align := by cases t <;> exact Nat.succ_pos _

lemma length_encode (t : FieldType) (x : t.Value) (stack : View) :
    (t.encode x stack).length = t.size := by
  cases t with
  | bool => rfl
  | _ => exact View.read_length _ _

lemma wordsBytes_apply {n k : ℕ} (x : Fin n → UInt32) (i : Fin n) (hk : k < 4) :
    wordsBytes x (4 * i.val + k) = View.ofNatLE (x i).toNat k := by
  have hdiv : (4 * i.val + k) / 4 = i.val := by omega
  have hmod : (4 * i.val + k) % 4 = k := by omega
  have hlt : (4 * i.val + k) / 4 < n := hdiv.symm ▸ i.isLt
  rw [wordsBytes, dif_pos hlt, hmod, show (⟨_, hlt⟩ : Fin n) = i from Fin.ext hdiv]

/-- Words are read back from their bytes. -/
lemma wordsAt_of_read {n : ℕ} {x : Fin n → UInt32} {v : View}
    (h : v.read 0 (4 * n) = (wordsBytes x).read 0 (4 * n)) : wordsAt n v = x := by
  funext i
  have hi := i.isLt
  have hword : v.natLE (4 * i.val) 4 = (x i).toNat := by
    rw [← View.natLE_ofNatLE (n := 4) (x i).toNat_lt]
    refine View.natLE_congr fun k hk => ?_
    have hbyte := View.read_eq_read_iff.mp h (4 * i.val + k) (by omega)
    rw [Nat.zero_add] at hbyte
    rw [hbyte, Nat.zero_add, wordsBytes_apply x i hk]
  rw [wordsAt, hword, UInt32.ofNat_toNat]

/-- Two pointers see the same words exactly if they see the same bytes. -/
lemma wordsAt_eq_iff {n : ℕ} {v w : View} : wordsAt n v = wordsAt n w ↔ ∀ k < 4 * n, v k = w k := by
  have hword : ∀ {x y : ℕ}, x < 256 ^ 4 → y < 256 ^ 4 →
      (UInt32.ofNat x = UInt32.ofNat y ↔ x = y) := by
    intro x y hx hy
    rw [← UInt32.toNat_inj, UInt32.toNat_ofNat_of_lt' hx, UInt32.toNat_ofNat_of_lt' hy]
  rw [funext_iff]
  simp only [wordsAt, hword (View.natLE_lt _ 4) (View.natLE_lt _ 4), View.natLE_eq_natLE_iff]
  constructor
  · intro h k hk
    have hbyte := h ⟨k / 4, by omega⟩ (k % 4) (Nat.mod_lt _ (by decide))
    simpa only [Nat.div_add_mod] using hbyte
  · intro h i k hk
    have hi := i.isLt
    exact h _ (by omega)

lemma decode_encode (t : FieldType) (x : t.Value) (stack v : View)
    (h : v.read 0 t.size = t.encode x stack) : t.decode v = x := by
  cases t with
  | uint8 =>
      have hnat : v.natLE 0 1 = x.toNat := View.natLE_of_read x.toNat_lt h
      rw [decode, hnat, UInt8.ofNat_toNat]
  | uint16 =>
      have hnat : v.natLE 0 2 = x.toNat := View.natLE_of_read x.toNat_lt h
      rw [decode, hnat, UInt16.ofNat_toNat]
  | int16 =>
      have hnat : v.natLE 0 2 = x.toUInt16.toNat := View.natLE_of_read x.toUInt16.toNat_lt h
      rw [decode, hnat, UInt16.ofNat_toNat]
      rfl
  | int32 =>
      have hnat : v.natLE 0 4 = x.toUInt32.toNat := View.natLE_of_read x.toUInt32.toNat_lt h
      rw [decode, hnat, UInt32.ofNat_toNat]
      rfl
  | int64 =>
      have hnat : v.natLE 0 8 = x.toUInt64.toNat := View.natLE_of_read x.toUInt64.toNat_lt h
      rw [decode, hnat, UInt64.ofNat_toNat]
      rfl
  | bool =>
      have hbyte : v 0 = if x then 1 else 0 := (List.cons.inj h).1
      rw [decode, hbyte]
      cases x <;> rfl
  | floats n => exact wordsAt_of_read h
  | int32s n =>
      funext i
      rw [decode, wordsAt_of_read h]
      rfl
  | chars maxLen =>
      obtain ⟨s, h0, hlength⟩ := x
      have hbyte : ∀ k < maxLen + 1, v (0 + k) = View.ofCString s stack (0 + k) :=
        View.read_eq_read_iff.mp h
      have hs : v.cStringFrom maxLen 0 = s := by
        refine View.cStringFrom_eq h0 (fun k hk => ?_) ?_ hlength
        · rw [hbyte k (by omega), Nat.zero_add, View.ofCString, if_pos hk,
            List.getD_eq_getElem _ _ hk]
        · rw [hbyte s.length (by omega), Nat.zero_add, View.ofCString, if_neg (lt_irrefl _),
            if_pos rfl]
      exact Subtype.ext hs

end FieldType

/-- The fields of the packets. -/
abbrev wireFormat : Format FieldType where
  Value := FieldType.Value
  size := FieldType.size
  align := FieldType.align
  encode := FieldType.encode
  decode := FieldType.decode
  align_pos := FieldType.align_pos
  length_encode := FieldType.length_encode
  decode_encode := FieldType.decode_encode

/-- Two fields of one kind are equal exactly if their values are. -/
lemma field_eq_iff {t : FieldType} {x y : t.Value} :
    (⟨t, x⟩ : wireFormat.Field) = ⟨t, y⟩ ↔ x = y :=
  ⟨fun h => eq_of_heq (Sigma.mk.inj h).2, fun h => congrArg (Sigma.mk t) h⟩

/-! ### The structures of the server -/

/-- The packets that the server sends and the client decodes, with the values of their fields. -/
inductive WirePacket where
  | loginResponse (result : UInt16)
  | roomEnterResponse (result : Int16)
  | roomNewUserNtf (userUUID : Int64) (userID : CString maxUserIdLen)
  | roomUserInfoNtf (userUUID : Int64) (userID : CString maxUserIdLen) (position : Fin 3 → UInt32)
      (rotation : Fin 4 → UInt32)
  | roomLeaveUserNtf (userUUID : Int64) (userID : CString maxUserIdLen)
  | updatePlayerMovement (userUUID : Int64) (rotation : Fin 4 → UInt32) (motion : Fin 3 → UInt32)
  | roomChatNotify (userID : CString maxUserIdLen) (msg : CString maxChatMsgSize)
  | inventoryInfo (userUUID : Int64) (itemIDs : Fin inventorySize → Int32)
  | shopInfo (currentItemID : Int32) (nextUpdateTime : Int64)
  | shopBuyResponse (isSuccess : Bool)
  | tradeRequestNtf (reqUUID : Int64) (reqName : CString maxUserIdLen)

namespace WirePacket

/-- The ids of `Packet.h`. -/
def packetId : WirePacket → ℕ
  | loginResponse _ => 202
  | roomEnterResponse _ => 207
  | roomNewUserNtf _ _ => 208
  | roomUserInfoNtf _ _ _ _ => 209
  | roomLeaveUserNtf _ _ => 217
  | updatePlayerMovement _ _ _ => 219
  | roomChatNotify _ _ => 223
  | inventoryInfo _ _ => 301
  | shopInfo _ _ => 302
  | shopBuyResponse _ => 304
  | tradeRequestNtf _ _ => 311

/-- The members of the structures of `Packet.h` behind the header. -/
def fields : WirePacket → List wireFormat.Field
  | loginResponse result => [⟨.uint16, result⟩]
  | roomEnterResponse result => [⟨.int16, result⟩]
  | roomNewUserNtf userUUID userID => [⟨.int64, userUUID⟩, ⟨.chars maxUserIdLen, userID⟩]
  | roomUserInfoNtf userUUID userID position rotation =>
    [⟨.int64, userUUID⟩, ⟨.chars maxUserIdLen, userID⟩, ⟨.floats 3, position⟩,
      ⟨.floats 4, rotation⟩]
  | roomLeaveUserNtf userUUID userID => [⟨.int64, userUUID⟩, ⟨.chars maxUserIdLen, userID⟩]
  | updatePlayerMovement userUUID rotation motion =>
    [⟨.int64, userUUID⟩, ⟨.floats 4, rotation⟩, ⟨.floats 3, motion⟩]
  | roomChatNotify userID msg => [⟨.chars maxUserIdLen, userID⟩, ⟨.chars maxChatMsgSize, msg⟩]
  | inventoryInfo userUUID itemIDs => [⟨.int64, userUUID⟩, ⟨.int32s inventorySize, itemIDs⟩]
  | shopInfo currentItemID nextUpdateTime =>
    [⟨.int32, currentItemID⟩, ⟨.int64, nextUpdateTime⟩]
  | shopBuyResponse isSuccess => [⟨.bool, isSuccess⟩]
  | tradeRequestNtf reqUUID reqName => [⟨.int64, reqUUID⟩, ⟨.chars maxUserIdLen, reqName⟩]

variable (p : WirePacket) (stack : View)

/-- `sizeof` of the structure, its header included. -/
def packetSize : ℕ := packetHeaderLength + (p.fields.map fun f => wireFormat.size f.1).sum

/-- `PACKET_HEADER`. -/
def header : List wireFormat.Field :=
  [⟨.uint16, UInt16.ofNat p.packetSize⟩, ⟨.uint16, UInt16.ofNat p.packetId⟩, ⟨.uint8, (0 : UInt8)⟩]

/-- The bytes of the packed structure. What its arrays do not fill is what the memory held. -/
def bytes : Bytes := wireFormat.payload stack (p.header ++ p.fields)

end WirePacket

/-! ### The structures of the client -/

/-- A structure with `LayoutKind.Sequential`. -/
structure ClientStruct where
  Pack : ℕ := 8
  fields : List FieldType

def pLoginRes : ClientStruct := { fields := [.uint16] }

def pRoomEnterResponse : ClientStruct := { fields := [.int16] }

def pRoomNewUserNotify : ClientStruct := { fields := [.int64, .chars 32] }

def pRoomUserInfoNotify : ClientStruct := { fields := [.int64, .chars 32, .floats 3, .floats 4] }

def pRoomLeaveUserNotify : ClientStruct := { fields := [.int64, .chars 32] }

def pUpdatePlayerMovement : ClientStruct := { fields := [.int64, .floats 4, .floats 3] }

def pRoomChatNotify : ClientStruct := { fields := [.chars 32, .chars 256] }

def pInventoryInfo : ClientStruct := { Pack := 1, fields := [.int64, .int32s 5] }

def pShopInfo : ClientStruct := { Pack := 1, fields := [.int32, .int64] }

def pShopBuyResponse : ClientStruct := { Pack := 1, fields := [.bool] }

def pTradeRequestNtf : ClientStruct := { Pack := 1, fields := [.int64, .chars 32] }

/-- The structure that the receivers of the client read a packet as. -/
def clientStructs : List (ℕ × ClientStruct) :=
  [(EPacket.loginResponse.code, pLoginRes),
   (EPacket.roomEnterResponse.code, pRoomEnterResponse),
   (EPacket.roomNewUserNtf.code, pRoomNewUserNotify),
   (EPacket.roomUserInfoNtf.code, pRoomUserInfoNotify),
   (EPacket.roomLeaveUserNtf.code, pRoomLeaveUserNotify),
   (EPacket.updatePlayerMovement.code, pUpdatePlayerMovement),
   (EPacket.roomChatNotify.code, pRoomChatNotify),
   (EPacket.inventoryInfo.code, pInventoryInfo),
   (EPacket.shopInfo.code, pShopInfo),
   (EPacket.shopBuyResponse.code, pShopBuyResponse),
   (EPacket.tradeRequestNtf.code, pTradeRequestNtf)]

/-- `PacketBase::length`. -/
def packetBaseLength (v : View) : UInt16 := FieldType.decode .uint16 (v.shift 0)

/-- `PacketBase::packet_id`. -/
def packetBaseId (v : View) : UInt16 := FieldType.decode .uint16 (v.shift 2)

/-- `UnsafeCode.ByteArrayToStructure`. The structure can be longer than the array, and `behind` is
the memory there. -/
def byteArrayToStructure (s : ClientStruct) (data : Bytes) (behind : View) :
    List wireFormat.Field :=
  wireFormat.read s.Pack ((View.ofBytes data).append behind data.length) 0 s.fields

/-- `ReadTcpDataThread` on a whole packet, and the receiver that takes it. -/
def receivePacket (buffer : Bytes) (behind : View) : Option (List wireFormat.Field) :=
  let base := View.ofBytes buffer
  let data := (buffer.drop NetworkClient.packetBaseSize).take
    ((packetBaseLength base).toNat - NetworkClient.packetBaseSize)
  (clientStructs.lookup (packetBaseId base).toNat).map fun s => byteArrayToStructure s data behind

/-! ### What the client reads -/

namespace WirePacket

/-- The bytes of a position and a rotation, and what stands behind them. -/
def floatBytes (position : Fin 3 → UInt32) (rotation : Fin 4 → UInt32) (behind : View) : View :=
  ((FieldType.wordsBytes position).append (FieldType.wordsBytes rotation) 12).append behind 28

/-- The floats of a `ROOM_USER_INFO_NTF`, and the bytes behind them, repeat every three bytes. -/
def RepeatsFloats (behind : View) : WirePacket → Prop
  | roomUserInfoNtf _ _ position rotation =>
    ∀ k < 28, floatBytes position rotation behind (k + 3) = floatBytes position rotation behind k
  | _ => True

variable (p : WirePacket) (stack behind : View)

/-- The bytes behind the header. -/
def body : Bytes := wireFormat.payload (stack.shift packetHeaderLength) p.fields

/-- The memory in which the client finds the structure. -/
def bodyView : View := (View.ofBytes (p.body stack)).append behind (p.body stack).length

variable {p stack behind}

/-- The client declares the fields of every packet in the order of the server. -/
lemma exists_clientStruct (p : WirePacket) :
    ∃ s, clientStructs.lookup p.packetId = some s ∧ s.fields = p.fields.map Sigma.fst := by
  cases p <;> exact ⟨_, rfl, rfl⟩

lemma bytes_eq : p.bytes stack = wireFormat.payload stack p.header ++ p.body stack := by
  have hlength : (wireFormat.payload stack p.header).length = packetHeaderLength :=
    Format.length_payload _ _
  rw [bytes, Format.payload_append, hlength, body]

lemma read_bodyView : (p.bodyView stack behind).read 0 (p.body stack).length = p.body stack := by
  calc (p.bodyView stack behind).read 0 (p.body stack).length
      = (View.ofBytes (p.body stack)).read 0 (p.body stack).length :=
        View.read_congr fun k hk => View.append_apply_lt (by rwa [Nat.zero_add])
    _ = p.body stack := View.read_ofBytes _

/-- The client finds the structure by the id of the header. -/
lemma receivePacket_bytes {s : ClientStruct} (hs : clientStructs.lookup p.packetId = some s) :
    receivePacket (p.bytes stack) behind =
      some (wireFormat.read s.Pack (p.bodyView stack behind) 0 s.fields) := by
  have hlength : (wireFormat.payload stack p.header).length = packetHeaderLength :=
    Format.length_payload _ _
  have hbody : (p.body stack).length + packetHeaderLength = p.packetSize := by
    rw [body, Format.length_payload, packetSize, Nat.add_comm]
  have hsize : p.packetSize < 2 ^ 16 := by cases p <;> exact of_decide_eq_true rfl
  have hid : p.packetId < 2 ^ 16 := by cases p <;> exact of_decide_eq_true rfl
  have hread : wireFormat.read 1 (View.ofBytes (p.bytes stack)) 0 [.uint16, .uint16, .uint8] =
      p.header := by
    have hheader :
      (View.ofBytes (p.bytes stack)).read 0 (wireFormat.payload stack p.header).length =
        wireFormat.payload stack p.header := by
      rw [bytes_eq]
      exact View.read_ofBytes_append _ _
    exact Format.read_payload hheader
  obtain ⟨hlengthField, hrest⟩ := List.cons.inj hread
  obtain ⟨hidField, -⟩ := List.cons.inj hrest
  have hbaseLength : packetBaseLength (View.ofBytes (p.bytes stack)) = UInt16.ofNat p.packetSize :=
    eq_of_heq (Sigma.mk.inj hlengthField).2
  have hbaseId : packetBaseId (View.ofBytes (p.bytes stack)) = UInt16.ofNat p.packetId :=
    eq_of_heq (Sigma.mk.inj hidField).2
  have hdata : ((p.bytes stack).drop NetworkClient.packetBaseSize).take
      (p.packetSize - NetworkClient.packetBaseSize) = p.body stack := by
    rw [bytes_eq, List.drop_left' (show _ = NetworkClient.packetBaseSize from hlength)]
    exact List.take_of_length_le (Nat.le_sub_of_add_le hbody.le)
  rw [receivePacket, hbaseLength, hbaseId, UInt16.toNat_ofNat_of_lt' hsize,
    UInt16.toNat_ofNat_of_lt' hid, hdata, hs, Option.map_some]
  rfl

/-- A packet with aligned fields is read as it was sent. -/
lemma read_of_aligned {pack : ℕ} {is : List FieldType} (his : is = p.fields.map Sigma.fst)
    (hpack : 0 < pack) (h : wireFormat.Aligned pack 0 is) :
    wireFormat.read pack (p.bodyView stack behind) 0 is = p.fields := by
  subst his
  exact Format.read_payload_of_aligned hpack read_bodyView h

section UserInfo

variable {userUUID : Int64} {userID : CString maxUserIdLen} {position : Fin 3 → UInt32}
  {rotation : Fin 4 → UInt32}

/-- The floats of a `ROOM_USER_INFO_NTF`, and what the client finds behind them. -/
lemma bodyView_floats {k : ℕ} (hk : k < 31) :
    (roomUserInfoNtf userUUID userID position rotation).bodyView stack behind (41 + k) =
      floatBytes position rotation behind k := by
  have hlength : ((roomUserInfoNtf userUUID userID position rotation).body stack).length = 69 :=
    Format.length_payload _ _
  have hhead : (wireFormat.payload (stack.shift packetHeaderLength)
      [⟨.int64, userUUID⟩, ⟨.chars maxUserIdLen, userID⟩]).length = 41 :=
    Format.length_payload _ _
  rcases Nat.lt_or_ge k 28 with hk28 | hk28
  · have hbody : ((roomUserInfoNtf userUUID userID position rotation).bodyView stack behind).read
        41 28 = (FieldType.wordsBytes position).read 0 12 ++
          (FieldType.wordsBytes rotation).read 0 16 := by
      have hread : ((roomUserInfoNtf userUUID userID position rotation).bodyView stack behind).read
          0 (41 + 28) = (roomUserInfoNtf userUUID userID position rotation).body stack :=
        (congrArg _ hlength.symm).trans read_bodyView
      calc ((roomUserInfoNtf userUUID userID position rotation).bodyView stack behind).read 41 28
          = (((roomUserInfoNtf userUUID userID position rotation).bodyView stack behind).read 0
              (41 + 28)).drop 41 := (View.read_drop 0 41 28).symm
        _ = ((roomUserInfoNtf userUUID userID position rotation).body stack).drop 41 := by
            rw [hread]
        _ = (FieldType.wordsBytes position).read 0 12 ++
              (FieldType.wordsBytes rotation).read 0 16 := by
            rw [body, show (roomUserInfoNtf userUUID userID position rotation).fields =
              [⟨.int64, userUUID⟩, ⟨.chars maxUserIdLen, userID⟩] ++
                [⟨.floats 3, position⟩, ⟨.floats 4, rotation⟩] from rfl, Format.payload_append]
            exact (List.drop_left' hhead).trans (congrArg _ (List.append_nil _))
    have hfloats : (floatBytes position rotation behind).read 0 28 =
        (FieldType.wordsBytes position).read 0 12 ++ (FieldType.wordsBytes rotation).read 0 16 := by
      rw [View.read_add 0 12 16]
      refine congrArg₂ _ (View.read_congr fun k hk => ?_) (View.read_congr fun k hk => ?_)
      · rw [floatBytes, View.append_apply_lt (by omega), View.append_apply_lt (by omega)]
      · rw [floatBytes, View.append_apply_lt (by omega), Nat.zero_add, View.append_apply_add,
          Nat.zero_add]
    have := View.read_eq_read_iff.mp (hbody.trans hfloats.symm) k hk28
    rwa [Nat.zero_add] at this
  · obtain ⟨l, rfl⟩ := Nat.exists_eq_add_of_le hk28
    rw [floatBytes, View.append_apply_add, bodyView, hlength, show 41 + (28 + l) = 69 + l by omega,
      View.append_apply_add]

/-- The client looks for the floats of a `ROOM_USER_INFO_NTF` three bytes behind their place. -/
lemma read_roomUserInfoNtf_iff :
    wireFormat.read 8 ((roomUserInfoNtf userUUID userID position rotation).bodyView stack behind) 0
        pRoomUserInfoNotify.fields =
        (roomUserInfoNtf userUUID userID position rotation).fields ↔
      (roomUserInfoNtf userUUID userID position rotation).RepeatsFloats behind := by
  have hpacked : wireFormat.read 1
      ((roomUserInfoNtf userUUID userID position rotation).bodyView stack behind) 0
        pRoomUserInfoNotify.fields = (roomUserInfoNtf userUUID userID position rotation).fields :=
    Format.read_payload read_bodyView
  generalize hv : (roomUserInfoNtf userUUID userID position rotation).bodyView stack behind = v
    at hpacked ⊢
  have hread : wireFormat.read 8 v 0 pRoomUserInfoNotify.fields =
      [⟨.int64, FieldType.decode .int64 (v.shift 0)⟩,
        ⟨.chars 32, FieldType.decode (.chars 32) (v.shift 8)⟩,
        ⟨.floats 3, FieldType.wordsAt 3 (v.shift 44)⟩,
        ⟨.floats 4, FieldType.wordsAt 4 (v.shift 56)⟩] := rfl
  have hread1 : wireFormat.read 1 v 0 pRoomUserInfoNotify.fields =
      [⟨.int64, FieldType.decode .int64 (v.shift 0)⟩,
        ⟨.chars 32, FieldType.decode (.chars 32) (v.shift 8)⟩,
        ⟨.floats 3, FieldType.wordsAt 3 (v.shift 41)⟩,
        ⟨.floats 4, FieldType.wordsAt 4 (v.shift 53)⟩] := rfl
  have hequal : wireFormat.read 8 v 0 pRoomUserInfoNotify.fields =
      wireFormat.read 1 v 0 pRoomUserInfoNotify.fields ↔
      FieldType.wordsAt 3 (v.shift 44) = FieldType.wordsAt 3 (v.shift 41) ∧
        FieldType.wordsAt 4 (v.shift 56) = FieldType.wordsAt 4 (v.shift 53) := by
    rw [hread, hread1]
    simp only [List.cons.injEq, field_eq_iff, true_and, and_true]
  rw [hpacked] at hequal
  rw [hequal, FieldType.wordsAt_eq_iff, FieldType.wordsAt_eq_iff, RepeatsFloats]
  simp only [View.shift_apply]
  have hfloats : ∀ k < 31, v (41 + k) = floatBytes position rotation behind k := fun k hk => by
    rw [← hv]
    exact bodyView_floats hk
  constructor
  · rintro ⟨hposition, hrotation⟩ k hk
    rw [← hfloats _ (by omega), ← hfloats _ (by omega)]
    by_cases h : k < 12
    · have := hposition k h
      rwa [show 41 + (k + 3) = 44 + k by omega]
    · have := hrotation (k - 12) (by omega)
      rwa [show 41 + (k + 3) = 56 + (k - 12) by omega, show 41 + k = 53 + (k - 12) by omega]
  · intro h
    have hbytes : ∀ k < 28, v (44 + k) = v (41 + k) := fun k hk => by
      rw [show 44 + k = 41 + (k + 3) by omega, hfloats _ (by omega), hfloats _ (by omega)]
      exact h k hk
    refine ⟨fun k hk => hbytes k (by omega), fun k hk => ?_⟩
    have := hbytes (12 + k) (by omega)
    rwa [show 44 + (12 + k) = 56 + k by omega, show 41 + (12 + k) = 53 + k by omega] at this

end UserInfo

/-- **What the client reads.** Whatever the fields hold, and whatever stood in the memory of the
server and behind the array of the client, the client reads a packet as it was sent exactly if it is
no `ROOM_USER_INFO_NTF`, or one whose floats, with the bytes behind them, repeat every three
bytes. -/
theorem receivePacket_eq_iff (p : WirePacket) (stack behind : View) :
    receivePacket (p.bytes stack) behind = some p.fields ↔ p.RepeatsFloats behind := by
  obtain ⟨s, hs, hfields⟩ := exists_clientStruct p
  rw [receivePacket_bytes hs, Option.some.injEq]
  cases p with
  | roomUserInfoNtf userUUID userID position rotation =>
      obtain rfl := Option.some.inj hs
      exact read_roomUserInfoNtf_iff
  | _ =>
      obtain rfl := Option.some.inj hs
      exact iff_of_true (read_of_aligned hfields (by decide) (by decide)) trivial

/-- The packet about a player at (5, 2, 5), where it has just entered. -/
def spawnInfo : WirePacket :=
  roomUserInfoNtf 0 ⟨[97], by decide⟩ (fun i => if i = 1 then 0x40000000 else 0x40a00000)
    fun _ => 0

/-- The client reads something else. -/
theorem spawn_misread : ¬∀ (p : WirePacket) (stack behind : View),
    receivePacket (p.bytes stack) behind = some p.fields := by
  intro h
  have hrepeats := (receivePacket_eq_iff spawnInfo (fun _ => 0) fun _ => 0).mp (h _ _ _)
  rw [spawnInfo, RepeatsFloats] at hrepeats
  exact absurd (hrepeats 0 (by decide)) (by decide)

end WirePacket

end CKGameServer
