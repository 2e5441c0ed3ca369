import CKGameServer.Buffer.ReceiveBuffer

/-!
What becomes of a packet that `GetPacket` has returned, while the receive thread goes on
(`User::SetPacketData`, `User::GetPacket`).

The packet is a view into the buffer, and the cursor has passed it: its bytes are free for the
next compaction.

* `Front`: the stream stands at the front of the block, over what was there before.
* `mPakcetDataBuffer_of_run`: until the chunks reach the end of the block they are written behind
  the packet; from then on the unread bytes and the chunks stand at the front.
* `PacketIntact`, `KeepsPacket`: the chunks leave the packet as it was; what they move to the
  front differs from the packet nowhere.
* `packetIntact_iff`: the first holds exactly if the second does and the chunks fit.
-/

namespace CKGameServer

open Memory

namespace RecvBuffer

/-- The calls of the receive thread on the buffer. -/
def receives (chunks : List Chunk) : List Call := chunks.map Call.setPacketData

/-- The bytes of the chunks one after the other. -/
def joined (chunks : List Chunk) : Bytes := (chunks.map Subtype.val).flatten

/-- The unread bytes behind the packet, and the chunks behind them. -/
def behindPacket (b : RecvBuffer) (chunks : List Chunk) : Bytes :=
  b.unread.drop (packetFraming.frameLength b.unread) ++ joined chunks

/-- One of the chunks reaches the end of the block, where `SetPacketData` compacts. -/
def ReachesEnd (b : RecvBuffer) (chunks : List Chunk) : Prop :=
  chunks ≠ [] ∧ packetDataBufferSize ≤ b.mPakcetDataBufferWPos + (joined chunks).length

instance (b : RecvBuffer) (chunks : List Chunk) : Decidable (b.ReachesEnd chunks) :=
  inferInstanceAs (Decidable (_ ∧ _))

/-- If a chunk reaches the end of the block, what then stands at the front agrees with the packet
wherever it covers it. -/
def KeepsPacket (b : RecvBuffer) (chunks : List Chunk) : Prop :=
  b.ReachesEnd chunks → ∀ k < packetFraming.frameLength b.unread,
    b.mPakcetDataBufferRPos + k < (b.behindPacket chunks).length →
      (b.behindPacket chunks).getD (b.mPakcetDataBufferRPos + k) 0 = b.unread.getD k 0

/-- **The packet stays intact**: the chunks are copied inside the block, and the bytes at the
pointer that `GetPacket` has returned are those it found there. -/
def PacketIntact (b : RecvBuffer) (chunks : List Chunk) : Prop :=
  ∃ b', Runs.run call b.getPacket.2 (receives chunks) = some b' ∧
    ∀ p, b.getPacket.1.pDataPtr = some p →
      b'.mPakcetDataBuffer.read p b.getPacket.1.dataSize =
        b.mPakcetDataBuffer.read p b.getPacket.1.dataSize

/-- The stream stands at the front of the block, and behind it what stood in the block before. -/
structure Front (before : View) (stream : Bytes) (b : RecvBuffer) : Prop where
  rPos : b.mPakcetDataBufferRPos = 0
  wPos : b.mPakcetDataBufferWPos = stream.length
  memory : b.mPakcetDataBuffer = before.write 0 (View.ofBytes stream) stream.length

section Front

variable {b b' : RecvBuffer} {before : View} {stream pData : Bytes} {chunks : List Chunk}

/-- The bytes at the front are the unread ones. -/
lemma Front.unread (h : Front before stream b) : b.unread = stream := by
  rw [RecvBuffer.unread, remainByte, h.rPos, h.wPos, h.memory, Nat.sub_zero, View.read_write_self,
    View.read_ofBytes]

/-- A compaction brings the unread bytes to the front. -/
lemma front_compact (h : b.compact = some b') : Front b.mPakcetDataBuffer b.unread b' := by
  rw [compact] at h
  split at h
  · obtain ⟨memory, hcopy, rfl⟩ := Option.map_eq_some_iff.mp h
    rw [copyMemory] at hcopy
    split at hcopy
    · obtain rfl := Option.some.inj hcopy
      refine ⟨rfl, b.unread_length.symm, ?_⟩
      rw [unread_length, RecvBuffer.unread, View.write_ofBytes_read]
      rfl
    · cases hcopy
  · rename_i hremain
    have hempty : b.remainByte = 0 := Nat.eq_zero_of_not_pos hremain
    obtain rfl := Option.some.inj h
    refine ⟨rfl, by rw [unread_length, hempty], ?_⟩
    rw [unread_length, hempty]
    exact funext fun a => (View.write_apply_out (by omega)).symm

/-- A compaction leaves a stream that stands at the front there. -/
lemma Front.compact (h : Front before stream b) (hcompact : b.compact = some b') :
    Front before stream b' := by
  have hfront := front_compact hcompact
  rw [h.unread] at hfront
  refine ⟨hfront.rPos, hfront.wPos, ?_⟩
  rw [hfront.memory, h.memory, View.write_write_of_le le_rfl]

/-- A chunk is copied behind the stream. -/
lemma Front.appendData (h : Front before stream b) (happend : b.appendData pData = some b') :
    Front before (stream ++ pData) b' := by
  obtain ⟨memory, hcopy, rfl⟩ := Option.map_eq_some_iff.mp happend
  rw [copyMemory] at hcopy
  split at hcopy
  · obtain rfl := Option.some.inj hcopy
    refine ⟨h.rPos, ?_, ?_⟩
    · rw [List.length_append, ← h.wPos]
    · rw [h.memory, h.wPos, ← View.write_write_append, Nat.zero_add]
  · cases hcopy

/-- A chunk that reaches the end brings the unread bytes to the front, and follows them. -/
lemma front_setPacketData (hend : packetDataBufferSize ≤ b.mPakcetDataBufferWPos + pData.length)
    (h : b.setPacketData pData = some b') :
    Front b.mPakcetDataBuffer (b.unread ++ pData) b' := by
  rw [setPacketData, if_pos hend] at h
  obtain ⟨c, hcompact, happend⟩ := Option.bind_eq_some_iff.mp h
  exact (front_compact hcompact).appendData happend

lemma Front.setPacketData (h : Front before stream b) (hset : b.setPacketData pData = some b') :
    Front before (stream ++ pData) b' := by
  rw [RecvBuffer.setPacketData] at hset
  split at hset
  · obtain ⟨c, hcompact, happend⟩ := Option.bind_eq_some_iff.mp hset
    exact (h.compact hcompact).appendData happend
  · exact h.appendData hset

lemma joined_cons (pData : Chunk) (chunks : List Chunk) :
    joined (pData :: chunks) = pData.val ++ joined chunks := rfl

/-- **Once at the front the stream stays there**, and the chunks extend it. -/
lemma Front.run (h : Front before stream b)
    (hrun : Runs.run call b (receives chunks) = some b') :
    Front before (stream ++ joined chunks) b' := by
  induction chunks generalizing stream b with
  | nil =>
      obtain rfl := Option.some.inj hrun
      rwa [joined, List.map_nil, List.flatten_nil, List.append_nil]
  | cons pData chunks ih =>
      obtain ⟨c, hset, hrest⟩ := Option.bind_eq_some_iff.mp hrun
      rw [joined_cons, ← List.append_assoc]
      exact ih (h.setPacketData hset) hrest

/-- A chunk that does not reach the end is written behind the bytes there are. -/
lemma setPacketData_of_not_end
    (hend : b.mPakcetDataBufferWPos + pData.length < packetDataBufferSize)
    (h : b.setPacketData pData = some b') :
    b'.mPakcetDataBufferWPos = b.mPakcetDataBufferWPos + pData.length ∧
      ∀ a < b.mPakcetDataBufferWPos, b'.mPakcetDataBuffer a = b.mPakcetDataBuffer a := by
  rw [setPacketData, if_neg (Nat.not_le.mpr hend)] at h
  obtain ⟨memory, hcopy, rfl⟩ := Option.map_eq_some_iff.mp h
  rw [copyMemory, if_pos hend.le] at hcopy
  obtain rfl := Option.some.inj hcopy
  exact ⟨rfl, fun a ha => View.write_apply_out (.inl ha)⟩

/-- **The memory after a run of the receive thread**, as far as it had been written before. -/
theorem mPakcetDataBuffer_of_run (hb : b.CursorsInBounds)
    (hrun : Runs.run call b (receives chunks) = some b') {a : ℕ}
    (ha : a < b.mPakcetDataBufferWPos) :
    b'.mPakcetDataBuffer a =
      if b.ReachesEnd chunks then
        b.mPakcetDataBuffer.write 0 (View.ofBytes (b.unread ++ joined chunks))
          (b.unread ++ joined chunks).length a
      else b.mPakcetDataBuffer a := by
  induction chunks generalizing b with
  | nil =>
      obtain rfl := Option.some.inj hrun
      rw [if_neg fun h => h.1 rfl]
  | cons pData chunks ih =>
      obtain ⟨c, hset, hrest⟩ := Option.bind_eq_some_iff.mp hrun
      rw [joined_cons, ← List.append_assoc]
      by_cases hend : packetDataBufferSize ≤ b.mPakcetDataBufferWPos + pData.val.length
      · have hreaches : b.ReachesEnd (pData :: chunks) := by
          refine ⟨List.cons_ne_nil _ _, ?_⟩
          rw [joined_cons, List.length_append]
          omega
        rw [if_pos hreaches, ((front_setPacketData hend hset).run hrest).memory]
      · obtain ⟨hwPos, hkept⟩ := setPacketData_of_not_end (Nat.lt_of_not_le hend) hset
        obtain ⟨-, hbounds, hunread⟩ := unread_of_setPacketData hb hset
        have hreaches : b.ReachesEnd (pData :: chunks) ↔ c.ReachesEnd chunks := by
          rw [ReachesEnd, ReachesEnd, hwPos, joined_cons, List.length_append]
          refine ⟨fun h => ⟨?_, by omega⟩, fun h => ⟨List.cons_ne_nil _ _, by omega⟩⟩
          rintro rfl
          exact hend (by simpa [joined] using h.2)
        rw [ih hbounds hrest (by omega), hunread, hkept a ha]
        exact if_congr hreaches.symm (View.write_apply_congr (hkept a ha)) rfl

/-- The chunks are copied inside the block exactly if they fit behind the unread bytes. -/
lemma exists_run_receives_iff (hb : b.CursorsInBounds) :
    (∃ b', Runs.run call b (receives chunks) = some b') ↔
      b.remainByte + (joined chunks).length ≤ packetDataBufferSize := by
  induction chunks generalizing b with
  | nil =>
      refine iff_of_true ⟨b, rfl⟩ ?_
      obtain ⟨-, hwPos⟩ := hb
      rw [remainByte, joined, List.map_nil, List.flatten_nil, List.length_nil]
      omega
  | cons pData chunks ih =>
      rw [joined_cons, List.length_append]
      constructor
      · rintro ⟨b', hrun⟩
        obtain ⟨c, hset, hrest⟩ := Option.bind_eq_some_iff.mp hrun
        have hfits := (ih (unread_of_setPacketData hb hset).2.1).mp ⟨b', hrest⟩
        have hremain := remainByte_of_setPacketData hb hset
        omega
      · intro hfits
        have hhead : b.remainByte + pData.val.length ≤ packetDataBufferSize := by omega
        obtain ⟨c, hset, hbounds, -⟩ := setPacketData_of_fits hb hhead
        have hremain := remainByte_of_setPacketData hb hset
        obtain ⟨b', hrest⟩ := (ih hbounds).mpr (by omega)
        exact ⟨b', Option.bind_eq_some_iff.mpr ⟨c, hset, hrest⟩⟩

end Front

section PacketIntact

variable {b b' c : RecvBuffer} {calls : List Call} {chunks : List Chunk} {p : ℕ}

/-- Where `GetPacket` returns a pointer the unread bytes begin with a packet. -/
lemma beginsFrame_of_pDataPtr (h : b.getPacket.1.pDataPtr = some p) :
    packetFraming.BeginsFrame b.unread := by
  by_contra hframe
  rw [getPacket_of_not_beginsFrame hframe] at h
  cases h

/-- The bytes of the packet are the first of the unread ones. -/
lemma mPakcetDataBuffer_eq_getD {k : ℕ} (hk : k < b.remainByte) :
    b.mPakcetDataBuffer (b.mPakcetDataBufferRPos + k) = b.unread.getD k 0 := by
  have hk' : k < b.unread.length := by rwa [unread_length]
  rw [List.getD_eq_getElem _ _ hk']
  exact (View.read_getElem _ _ _ hk').symm

/-- A byte of the packet after the chunks. -/
lemma mPakcetDataBuffer_packet_of_run (hb : b.CursorsInBounds)
    (hframe : packetFraming.BeginsFrame b.unread)
    (hrun : Runs.run call b.getPacket.2 (receives chunks) = some b') {k : ℕ}
    (hk : k < packetFraming.frameLength b.unread) :
    b'.mPakcetDataBuffer (b.mPakcetDataBufferRPos + k) =
      if b.ReachesEnd chunks ∧ b.mPakcetDataBufferRPos + k < (b.behindPacket chunks).length then
        (b.behindPacket chunks).getD (b.mPakcetDataBufferRPos + k) 0
      else b.unread.getD k 0 := by
  have hlen : packetFraming.frameLength b.unread ≤ b.remainByte := b.unread_length ▸ hframe.2
  have hbehind : b.getPacket.2.unread ++ joined chunks = b.behindPacket chunks := by
    rw [unread_getPacket, if_pos hframe, behindPacket]
  have hreaches : b.getPacket.2.ReachesEnd chunks = b.ReachesEnd chunks := by
    rw [ReachesEnd, mPakcetDataBufferWPos_getPacket, ReachesEnd]
  have hin : b.mPakcetDataBufferRPos + k < b.getPacket.2.mPakcetDataBufferWPos := by
    rw [mPakcetDataBufferWPos_getPacket]
    rw [remainByte] at hlen
    omega
  have hmemory := mPakcetDataBuffer_of_run (cursorsInBounds_getPacket hb) hrun hin
  simp only [hbehind, hreaches, mPakcetDataBuffer_getPacket] at hmemory
  rw [hmemory, ← mPakcetDataBuffer_eq_getD (by omega)]
  by_cases hend : b.ReachesEnd chunks
  · by_cases hcovers : b.mPakcetDataBufferRPos + k < (b.behindPacket chunks).length
    · rw [if_pos hend, if_pos ⟨hend, hcovers⟩, View.write_apply_in (Nat.zero_le _) (by omega)]
      rfl
    · rw [if_pos hend, if_neg fun h => hcovers h.2, View.write_apply_out (by omega)]
  · rw [if_neg hend, if_neg fun h => hend h.1]

/-- Chunks copied inside the block leave the bytes of the packet exactly under the condition. -/
lemma read_packet_iff (hb : b.CursorsInBounds) (hframe : packetFraming.BeginsFrame b.unread)
    (hrun : Runs.run call b.getPacket.2 (receives chunks) = some b') :
    b'.mPakcetDataBuffer.read b.mPakcetDataBufferRPos (packetFraming.frameLength b.unread) =
        b.mPakcetDataBuffer.read b.mPakcetDataBufferRPos (packetFraming.frameLength b.unread) ↔
      b.KeepsPacket chunks := by
  have hlen : packetFraming.frameLength b.unread ≤ b.remainByte := b.unread_length ▸ hframe.2
  have hbyte : ∀ k < packetFraming.frameLength b.unread,
      (b'.mPakcetDataBuffer (b.mPakcetDataBufferRPos + k) =
          b.mPakcetDataBuffer (b.mPakcetDataBufferRPos + k) ↔
        (b.ReachesEnd chunks → b.mPakcetDataBufferRPos + k < (b.behindPacket chunks).length →
          (b.behindPacket chunks).getD (b.mPakcetDataBufferRPos + k) 0 =
            b.unread.getD k 0)) := by
    intro k hk
    rw [mPakcetDataBuffer_packet_of_run hb hframe hrun hk, mPakcetDataBuffer_eq_getD (by omega),
      ← and_imp]
    split
    · rename_i hcovered
      rw [imp_iff_right hcovered]
    · rename_i hcovered
      exact iff_of_true rfl fun h => absurd h hcovered
  rw [View.read_eq_read_iff]
  constructor
  · exact fun h hend k hk => (hbyte k hk).mp (h k hk) hend
  · exact fun h k hk => (hbyte k hk).mpr fun hend => h hend k hk

/-- **A dequeued packet while the receive thread goes on.** In every state that `User::Clear` and
calls of the two functions lead to and in which `GetPacket` returns a packet, the chunks received
next leave it intact exactly if they fit behind the unread bytes and either do not reach the end of
the block, or bring to the front nothing that differs from the packet where it covers it. -/
theorem packetIntact_iff (hreach : Runs.run call c.clear calls = some b)
    (hpacket : b.getPacket.1.pDataPtr = some p) :
    b.PacketIntact chunks ↔
      (b.behindPacket chunks).length ≤ packetDataBufferSize ∧ b.KeepsPacket chunks := by
  have hb : b.CursorsInBounds :=
    (Runs.always_of_step (fun _ _ _ hs h => cursorsInBounds_call hs h) calls
      c.cursorsInBounds_clear).of_run hreach
  have hframe := beginsFrame_of_pDataPtr hpacket
  have hfits : (b.behindPacket chunks).length =
      b.getPacket.2.remainByte + (joined chunks).length := by
    rw [behindPacket, List.length_append, ← unread_length, unread_getPacket, if_pos hframe]
  rw [hfits, ← exists_run_receives_iff (cursorsInBounds_getPacket hb)]
  constructor
  · rintro ⟨b', hrun, hkept⟩
    refine ⟨⟨b', hrun⟩, (read_packet_iff hb hframe hrun).mp ?_⟩
    rw [getPacket_of_beginsFrame hframe] at hkept
    exact hkept _ rfl
  · rintro ⟨⟨b', hrun⟩, hkeeps⟩
    refine ⟨b', hrun, fun q hq => ?_⟩
    rw [getPacket_of_beginsFrame hframe] at hq ⊢
    obtain rfl := Option.some.inj hq
    exact (read_packet_iff hb hframe hrun).mpr hkeeps

end PacketIntact

/-- A `ROOM_LEAVE_REQUEST`: nothing but a header. -/
def leaveRequest : Chunk := ⟨[5, 0, 215, 0, 0], by decide⟩

/-- The buffer when one has come in. -/
def leaveReceived : RecvBuffer where
  mPakcetDataBuffer := View.write (fun _ => 0) 0 (View.ofBytes leaveRequest.val) 5
  mPakcetDataBufferWPos := 5

/-- Two more behind it. -/
theorem packetIntact_leaveRequests : leaveReceived.PacketIntact [leaveRequest, leaveRequest] :=
  (packetIntact_iff (c := ⟨fun _ => 0, 0, 0⟩) (p := 0)
    (show Runs.run call _ [.setPacketData leaveRequest] = some leaveReceived from rfl) rfl).mpr
    ⟨by decide, fun h => absurd h (by decide)⟩

/-- The chunk that ends just where the block does. -/
def lastChunk : Chunk := ⟨List.replicate 155 255, by simp [maxSockRecvBuf]⟩

/-- Nearly eight thousand bytes that begin no complete packet, and the last of which reach the
end. -/
def backlog : List Chunk := List.replicate 31 fullChunk ++ [lastChunk]

/-- A packet at the front of the block is overwritten by the unread bytes behind it. -/
theorem not_packetIntact_backlog :
    ∃ b b' : RecvBuffer,
      Runs.run call (⟨fun _ => 0, 0, 0⟩ : RecvBuffer).clear [.setPacketData leaveRequest] = some b ∧
      b.getPacket.1.pDataPtr = some 0 ∧ b.getPacket.1.dataSize = 5 ∧
      Runs.run call b.getPacket.2 (receives backlog) = some b' ∧
      b'.mPakcetDataBuffer.read 0 5 ≠ b.mPakcetDataBuffer.read 0 5 := by
  have hb : leaveReceived.CursorsInBounds := ⟨by decide, by decide⟩
  have hframe : packetFraming.BeginsFrame leaveReceived.unread := by decide
  have hlength : (joined backlog).length = 8091 := by decide +kernel
  have hfits : leaveReceived.getPacket.2.remainByte + (joined backlog).length ≤
      packetDataBufferSize := by
    rw [hlength]
    decide
  obtain ⟨b', hrun⟩ := (exists_run_receives_iff (cursorsInBounds_getPacket hb)).mpr hfits
  refine ⟨leaveReceived, b', rfl, rfl, rfl, hrun, fun hkept => ?_⟩
  have hfirst := (read_packet_iff hb hframe hrun).mp hkept ⟨by decide, by rw [hlength]; decide⟩ 0
    (by decide) (by rw [behindPacket, List.length_append, hlength]; decide)
  exact absurd hfirst (by decide +kernel)

end RecvBuffer

end CKGameServer
