import CKGameServer.Buffer.FrameQueue
import CKGameServer.Model.NetworkClient

/-!
What the client sends, as the server's receive buffer frames it.

* `RoundTrips`: the bytes of one call, in whatever chunks they arrive at an empty buffer, are
  read back as the one packet that was sent.
* `roundTrips_sendPacket2`, `not_roundTrips_sendPacket`: `SendData2` writes the header that
  `GetPacket` reads; under the header of `SendData` the server reads an id below 32.
* `roundTrips_iff`: the round trip holds for `SendPacket2` and for no call of `SendPacket`.
-/

namespace CKGameServer

open Memory RecvBuffer

namespace NetworkClient

/-- A payload that fits into the receive buffer with its header. -/
abbrev Payload := { data : Bytes // packetHeaderLength + data.length ≤ packetDataBufferSize }

/-- Chunks that arrive one after the other, and two calls of `GetPacket`. -/
def arrive (chunks : List Chunk) : List Call :=
  chunks.map Call.setPacketData ++ [.getPacket, .getPacket]

/-- Sent with `routine`, the packet arrives as it is: `GetPacket` answers it once, with its id,
its size and its payload, and no byte is left. -/
def RoundTrips (routine : SendRoutine) (packetId : EPacket) (data : Bytes) : Prop :=
  ∀ (b : RecvBuffer) (chunks : List Chunk), b.CursorsInBounds → b.unread = [] →
    chunks.flatMap Subtype.val = wire packetId data routine →
    ∃ packet b', Runs.outputs call output b (arrive chunks) = [packet] ∧
      packet.packetId = packetId.code ∧
      packet.dataSize = packetHeaderLength + data.length ∧
      packet.content.drop packetHeaderLength = data ∧
      Runs.run call b (arrive chunks) = some b' ∧ b'.unread = []

/-! ### Chunks that arrive -/

variable {b : RecvBuffer} {s : Bytes}

/-- Chunks that fit are put into the queue one behind the other. -/
lemma run_setPacketData (chunks : List Chunk) (hb : b.Refines s)
    (hfits : s.length + (chunks.flatMap Subtype.val).length ≤ packetDataBufferSize)
    (calls : List Call) :
    ∃ b', b'.Refines (s ++ chunks.flatMap Subtype.val) ∧
      Runs.run call b (chunks.map Call.setPacketData ++ calls) = Runs.run call b' calls ∧
      Runs.outputs call output b (chunks.map Call.setPacketData ++ calls) =
        Runs.outputs call output b' calls := by
  induction chunks generalizing b s with
  | nil => exact ⟨b, by simpa using hb, rfl, rfl⟩
  | cons c chunks ih =>
      rw [List.flatMap_cons, List.length_append] at hfits
      have hc : b.FitsCall (.setPacketData c) := by
        rw [FitsCall, ← unread_length, hb.unread]
        omega
      obtain ⟨hout, b₁, s₁, hcall, hput, hb₁⟩ := call_refines hb hc
      obtain rfl := Option.some.inj hput
      obtain ⟨b', hb', hrun, houts⟩ := ih hb₁ (by rw [List.length_append]; omega)
      refine ⟨b', ?_, ?_, ?_⟩
      · rwa [List.flatMap_cons, ← List.append_assoc]
      · rw [List.map_cons, List.cons_append, Runs.run_cons, hcall, Option.bind_some, hrun]
      · rw [List.map_cons, List.cons_append, Runs.outputs_cons hcall, houts]
        rfl

/-- The bytes of one call, arrived in full. -/
lemma run_arrive {packetId : EPacket} {data : Payload} {routine : SendRoutine}
    {chunks : List Chunk} (hb : b.CursorsInBounds) (hunread : b.unread = [])
    (hchunks : chunks.flatMap Subtype.val = wire packetId data.val routine) :
    ∃ b' : RecvBuffer, b'.Refines (wire packetId data.val routine) ∧
      Runs.run call b (arrive chunks) = some b'.getPacket.2.getPacket.2 ∧
      Runs.outputs call output b (arrive chunks) =
        b'.received.toList ++ b'.getPacket.2.received.toList := by
  have hdata : packetHeaderLength + data.val.length ≤ packetDataBufferSize := data.property
  have hfits : ([] : Bytes).length + (chunks.flatMap Subtype.val).length ≤
      packetDataBufferSize := by
    calc ([] : Bytes).length + (chunks.flatMap Subtype.val).length
        = packetHeaderLength + data.val.length := by
          rw [hchunks, wire_length, List.length_nil, Nat.zero_add, Nat.add_comm]
          rfl
      _ ≤ packetDataBufferSize := hdata
  obtain ⟨b', hb', hrun, houts⟩ :=
    run_setPacketData chunks ⟨hb, hunread⟩ hfits [.getPacket, .getPacket]
  rw [List.nil_append, hchunks] at hb'
  refine ⟨b', hb', hrun, ?_⟩
  rw [arrive, houts, Runs.outputs_cons rfl, Runs.outputs_cons rfl, Runs.outputs_nil,
    List.append_nil]
  rfl

/-! ### The two headers -/

variable {packetId : EPacket} {data : Payload}

/-- An id takes two bytes. -/
lemma code_lt (packetId : EPacket) : packetId.code < 256 ^ 2 := by
  cases packetId <;> decide

/-- The ids of the client begin at 201. -/
lemma code_ge (packetId : EPacket) : 201 ≤ packetId.code := by
  cases packetId <;> decide

/-- A number read from the bytes of a packet stands in the array they were copied from. -/
lemma natLE_ofBytes_read {v : View} {off n m : ℕ} (h : off + n ≤ m) :
    (View.ofBytes (v.read 0 m)).natLE off n = v.natLE off n :=
  View.natLE_congr fun k hk => by
    rw [View.ofBytes, List.getD_eq_getElem _ _ (by rw [View.read_length]; omega),
      View.read_getElem, Nat.zero_add]

/-- `SendData2` writes the size first. -/
lemma natLE_sendData2Buff_length (data : Payload) :
    (sendData2Buff packetId data.val).natLE 0 2 = packetHeaderLength + data.val.length := by
  have hdata : 5 + data.val.length ≤ 8096 := data.property
  have hbuff : (sendData2Buff packetId data.val).natLE 0 2 =
      (View.ofNatLE (data.val.length + packetBaseSize)).natLE 0 2 :=
    View.natLE_congr fun k hk => by
      rw [sendData2Buff, View.write_apply_out (.inl (by rw [packetBaseSize]; omega)),
        View.write_apply_out (.inl (by omega)), View.write_apply_in (by omega) (by omega),
        Nat.sub_zero]
  rw [hbuff, View.natLE_ofNatLE, Nat.add_comm]
  · rfl
  · rw [packetBaseSize]
    omega

/-- `SendData2` writes the id behind it. -/
lemma natLE_sendData2Buff_id (data : Bytes) :
    (sendData2Buff packetId data).natLE 2 2 = packetId.code := by
  have hbuff : (sendData2Buff packetId data).natLE 2 2 =
      (View.ofNatLE packetId.code).natLE 0 2 :=
    View.natLE_congr fun k hk => by
      rw [sendData2Buff, View.write_apply_out (.inl (by rw [packetBaseSize]; omega)),
        View.write_apply_in (by omega) (by omega), Nat.zero_add, Nat.add_sub_cancel_left]
  rw [hbuff, View.natLE_ofNatLE (code_lt packetId)]

/-- Where the server looks for the id, `SendData` has written the upper byte of the size. -/
lemma natLE_sendDataBuff_id (data : Payload) :
    (sendDataBuff packetId data.val).natLE 2 2 < 32 := by
  have hdata : 5 + data.val.length ≤ 8096 := data.property
  have hupper : sendDataBuff packetId data.val 2 =
      View.ofNatLE (data.val.length + packetBaseSize) 1 := by
    rw [sendDataBuff, View.write_apply_out (.inl (by decide)),
      View.write_apply_in (by omega) (by omega)]
  have hzero : sendDataBuff packetId data.val 3 = 0 := by
    rw [sendDataBuff, View.write_apply_out (.inl (by decide)),
      View.write_apply_out (.inr (by omega)), View.write_apply_out (.inr (by omega))]
  have hbyte : (sendDataBuff packetId data.val 2).toNat =
      (data.val.length + packetBaseSize) / 256 % 256 := by
    rw [hupper, View.ofNatLE, UInt8.toNat_ofNat', pow_one, Nat.mod_mod]
  rw [View.natLE, View.natLE, View.natLE, hzero, hbyte, UInt8.toNat_zero, packetBaseSize]
  omega

/-- The payload stands behind the header. -/
lemma drop_sendData2 (data : Bytes) : (sendData2 packetId data).drop packetHeaderLength = data := by
  calc (sendData2 packetId data).drop packetHeaderLength
      = ((sendData2Buff packetId data).read 0 (packetHeaderLength + data.length)).drop
          packetHeaderLength := by
        rw [sendData2, Nat.add_comm]
        rfl
    _ = (sendData2Buff packetId data).read (0 + packetHeaderLength) data.length :=
        View.read_drop ..
    _ = data := by
        rw [Nat.zero_add, sendData2Buff]
        exact (View.read_write_self ..).trans (View.read_ofBytes data)

/-- What `SendData2` sends is one packet of the protocol. -/
lemma isPacket_sendData2 (data : Payload) : IsPacket (sendData2 packetId data.val) := by
  have hlength : (sendData2 packetId data.val).length = packetHeaderLength + data.val.length := by
    rw [sendData2, View.read_length, Nat.add_comm]
    rfl
  refine ⟨?_, ?_⟩
  · rw [hlength]
    exact Nat.le_add_right _ _
  · calc packetFraming.frameLength (sendData2 packetId data.val)
        = (sendData2Buff packetId data.val).natLE 0 2 :=
          natLE_ofBytes_read (by rw [packetBaseSize]; omega)
      _ = (sendData2 packetId data.val).length := by
          rw [natLE_sendData2Buff_length, hlength]

/-- The id in the header of bytes that were copied from an array. -/
lemma packetIdAt_headed {v : View} {n : ℕ} (hn : packetHeaderLength ≤ n) :
    packetIdAt (View.ofBytes (packetFraming.headed (v.read 0 n)).1) 0 = v.natLE 2 2 := by
  have htake : (packetFraming.headed (v.read 0 n)).1 = v.read 0 packetHeaderLength := by
    rw [← Nat.add_sub_cancel' hn]
    rw [Framing.headed, View.read_add]
    exact List.take_left' (View.read_length ..)
  rw [htake, packetIdAt]
  exact natLE_ofBytes_read (by decide)

/-! ### The round trip -/

/-- `SendPacket2` round-trips. -/
lemma roundTrips_sendPacket2 (packetId : EPacket) (data : Payload) :
    RoundTrips .sendPacket2 packetId data.val := by
  intro b chunks hb hunread hchunks
  obtain ⟨b', hb', hrun, houts⟩ := run_arrive hb hunread hchunks
  have hpacket : IsPacket b'.unread := hb'.unread ▸ isPacket_sendData2 data
  have hbegins := hpacket.beginsFrame
  have hreceived : b'.received =
      some (ReceivedPacket.of (packetFraming.headed (sendData2 packetId data.val))) := by
    rw [received_refines, Framing.queueOutput, if_pos hbegins, hpacket.2, List.take_length,
      hb'.unread]
    rfl
  have hnothing : b'.getPacket.2.unread = [] := by
    rw [unread_getPacket, if_pos hbegins, hpacket.2, List.drop_length]
  have hnot : ¬packetFraming.BeginsFrame b'.getPacket.2.unread := by
    rw [hnothing]
    exact Framing.not_beginsFrame_nil (Nat.succ_pos 4)
  refine ⟨ReceivedPacket.of (packetFraming.headed (sendData2 packetId data.val)),
    b'.getPacket.2.getPacket.2, ?_, ?_, ?_, drop_sendData2 data.val, hrun, ?_⟩
  · rw [houts, hreceived, received_refines, Framing.queueOutput, if_neg hnot]
    rfl
  · exact (packetIdAt_headed (Nat.le_add_left _ _)).trans
      (natLE_sendData2Buff_id data.val)
  · calc packetFraming.frameLength ((sendData2 packetId data.val).take packetHeaderLength)
        = packetFraming.frameLength (sendData2 packetId data.val) :=
          frameLength_take_header (isPacket_sendData2 data).1
      _ = packetHeaderLength + data.val.length := by
          rw [(isPacket_sendData2 data).2, sendData2, View.read_length, Nat.add_comm]
          rfl
  · rw [unread_getPacket, if_neg hnot, hnothing]

/-- Any bytes may arrive one by one. -/
lemma exists_chunks (s : Bytes) : ∃ chunks : List Chunk, chunks.flatMap Subtype.val = s := by
  induction s with
  | nil => exact ⟨[], rfl⟩
  | cons x s ih =>
      obtain ⟨chunks, hchunks⟩ := ih
      exact ⟨⟨[x], Nat.le_add_left 1 255⟩ :: chunks, by rw [List.flatMap_cons, hchunks]; rfl⟩

/-- `SendPacket` does not: the server reads an id that no packet of the client has, or waits for
bytes that do not belong to the packet. -/
lemma not_roundTrips_sendPacket (packetId : EPacket) (data : Payload) :
    ¬RoundTrips .sendPacket packetId data.val := by
  intro h
  obtain ⟨chunks, hchunks⟩ := exists_chunks (wire packetId data.val .sendPacket)
  have hempty : (⟨fun _ => 0, 0, 0⟩ : RecvBuffer).CursorsInBounds := ⟨le_rfl, Nat.zero_le _⟩
  obtain ⟨packet, c, hpackets, hid, -⟩ := h ⟨fun _ => 0, 0, 0⟩ chunks hempty rfl hchunks
  obtain ⟨b', hb', -, houts⟩ := run_arrive hempty rfl hchunks
  rw [hpackets] at houts
  by_cases hbegins : packetFraming.BeginsFrame b'.unread
  · rw [received_refines, Framing.queueOutput, if_pos hbegins, hb'.unread] at houts
    have hpacket : packet.packetId = (sendDataBuff packetId data.val).natLE 2 2 := by
      rw [(List.cons.inj houts).1]
      exact packetIdAt_headed (Nat.le_add_left _ _)
    have hlt : (sendDataBuff packetId data.val).natLE 2 2 < 32 := natLE_sendDataBuff_id data
    have hge := code_ge packetId
    omega
  · have hnone : b'.received = none := by
      rw [received_refines, Framing.queueOutput, if_neg hbegins]
      rfl
    rw [getPacket_of_not_beginsFrame hbegins, hnone] at houts
    cases houts

/-- **The framing round trip** holds exactly for the packets sent with `SendPacket2`. -/
theorem roundTrips_iff (routine : SendRoutine) (packetId : EPacket) (data : Payload) :
    RoundTrips routine packetId data.val ↔ routine = .sendPacket2 := by
  cases routine with
  | sendPacket => simpa using not_roundTrips_sendPacket packetId data
  | sendPacket2 => simpa using roundTrips_sendPacket2 packetId data

/-- A `SHOP_BUY_REQUEST` with four bytes of payload, sent as the shop of the client sends it: the
server waits for a packet of 2351 bytes. -/
theorem not_roundTrips_shopBuyRequest :
    ¬∀ (routine : SendRoutine) (packetId : EPacket) (data : Payload),
      RoundTrips routine packetId data.val := fun h =>
  not_roundTrips_sendPacket .shopBuyRequest ⟨[101, 0, 0, 0], by decide⟩
    (h .sendPacket .shopBuyRequest ⟨[101, 0, 0, 0], by decide⟩)

end NetworkClient

end CKGameServer
