import CKGameServer.Buffer.ReceiveBuffer
import CKGameServer.Library.FrameQueue

/-!
The receive buffer as a queue of packets.

* `Refines`: the bytes between the two cursors are those of an abstract queue.
* `call_refines`: `SetPacketData` of a chunk that fits and `GetPacket` are a put and a take.
* `getPacket_refines_stream`: over any interleaving of the two on a stream of packets, `GetPacket`
  answers the packets of the stream one after the other, and the buffer holds what has been
  received and not been answered.
-/

namespace CKGameServer

open Memory

/-- A packet as the caller of `GetPacket` finds it: the id and the size of the `PacketInfo` and
the bytes `pDataPtr` points to. -/
structure ReceivedPacket where
  packetId : ℕ
  dataSize : ℕ
  content : Bytes
  deriving DecidableEq, Repr

/-- The packet with a header `frame.1` and the bytes `frame.2`. -/
def ReceivedPacket.of (frame : Bytes × Bytes) : ReceivedPacket where
  packetId := packetIdAt (View.ofBytes frame.1) 0
  dataSize := packetLengthAt (View.ofBytes frame.1) 0
  content := frame.2

namespace RecvBuffer

/-- A packet on the wire: a header that gives its length. -/
abbrev IsPacket (x : Bytes) : Prop := packetFraming.IsFrame x

/-- What `GetPacket` answers, if it finds a packet. -/
def received (b : RecvBuffer) : Option ReceivedPacket :=
  let packet := b.getPacket.1
  packet.pDataPtr.map fun off =>
    { packetId := packet.packetId
      dataSize := packet.dataSize
      content := b.getPacket.2.mPakcetDataBuffer.read off packet.dataSize }

/-- What a call answers. -/
def output (b : RecvBuffer) : Call → Option ReceivedPacket
  | .setPacketData _ => none
  | .getPacket => b.received

/-- The call on the queue. -/
def Call.op : Call → Framing.QueueOp UInt8
  | .setPacketData pData => .put pData.val
  | .getPacket => .take

/-- The bytes a call brings. -/
def Call.incoming : Call → Bytes
  | .setPacketData pData => pData.val
  | .getPacket => []

/-- The buffer stands for a queue of bytes. -/
structure Refines (b : RecvBuffer) (s : Bytes) : Prop where
  cursorsInBounds : b.CursorsInBounds
  unread : b.unread = s

variable {b : RecvBuffer} {s : Bytes}

/-- The first unread bytes are those at the read position. -/
lemma take_unread {n : ℕ} (hn : n ≤ b.remainByte) :
    b.unread.take n = b.mPakcetDataBuffer.read b.mPakcetDataBufferRPos n := by
  rw [unread, ← Nat.add_sub_cancel' hn, View.read_add]
  exact List.take_left' (View.read_length ..)

/-- The header at the read position is the one of the unread bytes. -/
lemma packetIdAt_packetPtr (h : packetHeaderLength ≤ b.remainByte) :
    packetIdAt b.packetPtr 0 = packetIdAt (View.ofBytes (b.unread.take packetHeaderLength)) 0 :=
  View.natLE_congr fun k hk => by
    rw [packetHeaderLength] at h
    have hk' : 0 + 2 + k < (b.unread.take packetHeaderLength).length := by
      rw [List.length_take, unread_length, packetHeaderLength]
      omega
    rw [packetPtr, View.shift_apply, View.ofBytes, List.getD_eq_getElem _ _ hk',
      List.getElem_take]
    exact (View.read_getElem _ _ _ _).symm

/-- The length field stands in the header. -/
lemma frameLength_take_header {x : Bytes} (h : packetHeaderLength ≤ x.length) :
    packetFraming.frameLength (x.take packetHeaderLength) = packetFraming.frameLength x := by
  conv_rhs => rw [← List.take_append_drop packetHeaderLength x]
  refine (packetFraming.frameLength_append _ _ ?_).symm
  show packetHeaderLength ≤ _
  rw [List.length_take]
  omega

/-- **`GetPacket` answers the frame at the head of the queue.** -/
lemma received_refines (b : RecvBuffer) :
    b.received = (packetFraming.queueOutput b.unread .take).map ReceivedPacket.of := by
  rw [received, Framing.queueOutput]
  by_cases h : packetFraming.BeginsFrame b.unread
  · have hheader : packetHeaderLength ≤ b.remainByte := b.unread_length ▸ h.1
    have hlength : packetFraming.frameLength b.unread ≤ b.remainByte := b.unread_length ▸ h.2
    rw [if_pos h, getPacket_of_beginsFrame h, Option.map_some, Option.map_some, take_unread hlength,
      packetIdAt_packetPtr hheader, ReceivedPacket.of,
      ← frameLength_take_header (x := b.unread) h.1]
    rfl
  · rw [if_neg h, getPacket_of_not_beginsFrame h]
    rfl

/-- **The buffer refines the queue**: a chunk that fits is put behind its bytes, and `GetPacket`
takes the packet at its head, if all of it is there. -/
theorem call_refines {c : Call} (hb : b.Refines s) (hfits : b.FitsCall c) :
    b.output c = (packetFraming.queueOutput s c.op).map ReceivedPacket.of ∧
      ∃ b' s', b.call c = some b' ∧ packetFraming.queueStep s c.op = some s' ∧ b'.Refines s' := by
  obtain ⟨hbounds, rfl⟩ := hb
  cases c with
  | setPacketData pData =>
      obtain ⟨b', hb', hbounds', hunread⟩ := setPacketData_of_fits hbounds hfits
      exact ⟨rfl, b', _, hb', rfl, hbounds', hunread⟩
  | getPacket =>
      exact ⟨b.received_refines, _, _, rfl, rfl, cursorsInBounds_getPacket hbounds,
        b.unread_getPacket⟩

/-! ### Streams of packets -/

/-- The bytes that calls bring are those their operations put. -/
lemma flatMap_incoming_op (calls : List Call) :
    (calls.map Call.op).flatMap Framing.QueueOp.incoming = calls.flatMap Call.incoming := by
  rw [List.flatMap_map]
  refine List.flatMap_congr fun c _ => ?_
  cases c <;> rfl

/-- The calls `calls` from `User::Clear` on, on a stream that begins with the bytes they bring,
have answered the first packets of the stream and hold the rest of what they brought. -/
def AnswersPrefix (b : RecvBuffer) (packets : List Bytes) (calls : List Call) : Prop :=
  ∃ k b', Runs.run call b.clear calls = some b' ∧ k ≤ packets.length ∧
    Runs.outputs call output b.clear calls =
      (packets.take k).map (ReceivedPacket.of ∘ packetFraming.headed) ∧
    calls.flatMap Call.incoming = (packets.take k).flatten ++ b'.unread ∧
    b'.output .getPacket = ((packets[k]?).filter fun x => x.length ≤ b'.unread.length).map
      (ReceivedPacket.of ∘ packetFraming.headed)

/-- The refinement over a run, on a stream of packets. -/
lemma answersPrefix_of_fits (b : RecvBuffer) {packets : List Bytes} {calls : List Call}
    {rest : Bytes} (hpackets : ∀ x ∈ packets, IsPacket x)
    (hstream : calls.flatMap Call.incoming ++ rest = packets.flatten)
    (hfits : Runs.Along call FitsCall b.clear calls) : b.AnswersPrefix packets calls := by
  have hheader : 0 < packetFraming.header := Nat.succ_pos 4
  have hclear : b.clear.Refines [] := ⟨b.cursorsInBounds_clear, b.unread_clear⟩
  obtain ⟨b', s', hrun, hrun', hb', houts⟩ :=
    Runs.run_simulates (R := Refines) (C := FitsCall) (f := Call.op) (g := ReceivedPacket.of)
      (fun _ _ _ hR hC => call_refines hR hC) hclear hfits
  have hstream' : [] ++ ((calls.map Call.op).flatMap Framing.QueueOp.incoming ++ rest) =
      packets.flatten := by
    rw [List.nil_append, flatMap_incoming_op, hstream]
  obtain ⟨k, t, hrun'', hk, hqueue, ht⟩ :=
    Framing.queue_outputs hheader hpackets (calls.map Call.op) hstream'
  obtain rfl : s' = t := Option.some.inj (hrun'.symm.trans hrun'')
  obtain ⟨hbounds, rfl⟩ := hb'
  refine ⟨k, b', hrun, hk, ?_, ?_, ?_⟩
  · rw [houts, hqueue, List.map_map]
  · have hsplit : calls.flatMap Call.incoming ++ rest =
        ((packets.take k).flatten ++ b'.unread) ++ rest := by
      calc calls.flatMap Call.incoming ++ rest
          = packets.flatten := hstream
        _ = (packets.take k).flatten ++ (packets.drop k).flatten := by
            rw [← List.flatten_append, List.take_append_drop]
        _ = ((packets.take k).flatten ++ b'.unread) ++ rest := by
            rw [← ht, List.append_assoc]
    exact List.append_cancel_right hsplit
  · obtain ⟨hout, -⟩ := Framing.take_spec hheader
      (fun x hx => hpackets x (List.mem_of_mem_drop hx)) ht
    rw [output, received_refines, hout, List.head?_drop, Option.map_map]

/-- **The receive buffer refines a byte queue with framing.** On a stream of packets, cut into
chunks in any way and with the calls in any order, as long as every chunk fits behind the unread
bytes it finds: at every point of the run the packets `GetPacket` has answered are the first
packets of the stream, with their ids, lengths and contents; the unread bytes are those received
and not answered; and `GetPacket` answers the next packet as soon as all of it has been
received. -/
theorem getPacket_refines_stream (b : RecvBuffer) (packets : List Bytes) (calls : List Call)
    (rest : Bytes) (hpackets : ∀ x ∈ packets, IsPacket x)
    (hstream : calls.flatMap Call.incoming ++ rest = packets.flatten)
    (hfits : Runs.Along call FitsCall b.clear calls) :
    ∀ pre, pre <+: calls → b.AnswersPrefix packets pre := by
  rintro pre ⟨post, rfl⟩
  have hstream' : pre.flatMap Call.incoming ++ (post.flatMap Call.incoming ++ rest) =
      packets.flatten := by
    rw [← hstream, List.flatMap_append, List.append_assoc]
  exact answersPrefix_of_fits b hpackets hstream' hfits.of_append

instance (b : RecvBuffer) : ∀ c, Decidable (b.FitsCall c)
  | .setPacketData pData =>
    inferInstanceAs (Decidable (b.remainByte + pData.val.length ≤ packetDataBufferSize))
  | .getPacket => isTrue trivial

/-- A packet without a body and one of two bytes. -/
def twoPackets : List Bytes := [[5, 0, 215, 0, 0], [7, 0, 206, 0, 0, 1, 2]]

/-- They arrive in three chunks, the first of which ends in the first header and the second in
the second packet. -/
def threeChunks : List Call :=
  [.setPacketData ⟨[5, 0, 215], by decide⟩, .getPacket,
   .setPacketData ⟨[0, 0, 7, 0, 206, 0], by decide⟩, .getPacket, .getPacket,
   .setPacketData ⟨[0, 1, 2], by decide⟩, .getPacket]

/-- The refinement of `twoPackets` in `threeChunks`. -/
theorem getPacket_refines_twoPackets :
    (⟨fun _ => 0, 0, 0⟩ : RecvBuffer).AnswersPrefix twoPackets threeChunks :=
  getPacket_refines_stream _ twoPackets threeChunks [] (by decide) (by decide) (by decide)
    threeChunks (List.prefix_refl threeChunks)

end RecvBuffer

end CKGameServer
