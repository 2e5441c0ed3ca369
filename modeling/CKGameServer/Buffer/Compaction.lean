import CKGameServer.Buffer.FrameQueue
import CKGameServer.Buffer.Intact
import CKGameServer.Library.SlidingQueue

/-!
The compaction of the receive buffer (`User::SetPacketData`): `CopyMemory` asks for a source and
a destination that do not overlap.

* `CopiesApart`: where a chunk that fits makes the buffer compact, the unread bytes and the place
  they are copied to are disjoint.
* `RefinesSliding`, `call_refinesSliding`: the buffer is a queue whose content slides to the front
  of the block, and the bytes in front of the read position are those taken since.
* `copiesApart_iff`: the copies of a run are apart exactly if, whenever a chunk reaches the end of
  the block, no more bytes wait than have been taken since the last compaction.
* `copiesApart_of_half`: in particular if the block always has room for the waiting bytes twice.
-/

namespace CKGameServer

open Memory

namespace RecvBuffer

/-- **The copy of a compaction**: where a chunk that fits makes `SetPacketData` compact, no byte of
the source `[RPos, WPos)` is one of the destination `[0, WPos - RPos)`. -/
def CopiesApart (b : RecvBuffer) : Call → Prop
  | .setPacketData pData =>
    b.remainByte + pData.val.length ≤ packetDataBufferSize →
      packetDataBufferSize ≤ b.mPakcetDataBufferWPos + pData.val.length →
        ∀ a, b.mPakcetDataBufferRPos ≤ a ∧ a < b.mPakcetDataBufferWPos → ¬a < b.remainByte
  | .getPacket => True

/-- The buffer as a queue in a block: its unread bytes wait, and the bytes in front of them are
those taken since the last compaction. -/
structure RefinesSliding (b : RecvBuffer) (q : Framing.Sliding UInt8) : Prop where
  refines : b.Refines q.waiting
  rPos : b.mPakcetDataBufferRPos = q.taken

variable {b b' : RecvBuffer} {q : Framing.Sliding UInt8} {pData : Bytes}

lemma refinesSliding_clear (b : RecvBuffer) : b.clear.RefinesSliding {} :=
  ⟨⟨b.cursorsInBounds_clear, b.unread_clear⟩, rfl⟩

lemma RefinesSliding.remainByte (h : b.RefinesSliding q) : b.remainByte = q.waiting.length := by
  rw [← h.refines.unread, unread_length]

lemma RefinesSliding.wPos (h : b.RefinesSliding q) :
    b.mPakcetDataBufferWPos = q.taken + q.waiting.length := by
  obtain ⟨hr, -⟩ := h.refines.cursorsInBounds
  rw [← h.remainByte, ← h.rPos, RecvBuffer.remainByte]
  omega

/-- Bytes that move from `rPos` to the front do not overlap their place there exactly if there are
no more of them than bytes in front of them. -/
lemma apart_front_iff {rPos wPos : ℕ} :
    (∀ a, rPos ≤ a ∧ a < wPos → ¬a < wPos - rPos) ↔ wPos - rPos ≤ rPos := by
  constructor
  · intro h
    rcases Nat.lt_or_ge rPos wPos with hlt | hge
    · exact Nat.le_of_not_lt (h rPos ⟨Nat.le_refl rPos, hlt⟩)
    · rw [Nat.sub_eq_zero_of_le hge]
      exact Nat.zero_le rPos
  · rintro hle a ⟨hrPos, -⟩
    exact Nat.not_lt.mpr (hle.trans hrPos)

/-- The copy of a call is apart exactly if the queue keeps up. -/
lemma copiesApart_iff_keepsUp (h : b.RefinesSliding q) (c : Call) :
    b.CopiesApart c ↔ q.KeepsUp packetDataBufferSize c.op := by
  cases c with
  | setPacketData pData =>
      rw [CopiesApart, RecvBuffer.remainByte, apart_front_iff, ← RecvBuffer.remainByte, h.wPos,
        h.remainByte, h.rPos]
      rfl
  | getPacket => exact Iff.rfl

/-- `SetPacketData` sets the read position back where it compacts, and leaves it elsewhere. -/
lemma rPos_of_setPacketData (h : b.setPacketData pData = some b') :
    b'.mPakcetDataBufferRPos =
      if packetDataBufferSize ≤ b.mPakcetDataBufferWPos + pData.length then 0
      else b.mPakcetDataBufferRPos := by
  split
  · rename_i hend
    exact (front_setPacketData hend h).rPos
  · rename_i hend
    rw [setPacketData, if_neg hend] at h
    obtain ⟨memory, -, rfl⟩ := Option.map_eq_some_iff.mp h
    rfl

lemma rPos_getPacket (b : RecvBuffer) :
    b.getPacket.2.mPakcetDataBufferRPos =
      if packetFraming.BeginsFrame b.unread then
        b.mPakcetDataBufferRPos + packetFraming.frameLength b.unread
      else b.mPakcetDataBufferRPos := by
  split
  · rename_i hframe
    rw [getPacket_of_beginsFrame hframe]
  · rename_i hframe
    rw [getPacket_of_not_beginsFrame hframe]

/-- **The buffer refines the sliding queue**, call by call; the queue refuses what does not fit. -/
lemma call_refinesSliding (h : b.RefinesSliding q) (c : Call) :
    Option.Rel RefinesSliding (b.call c)
      (packetFraming.slide packetDataBufferSize q c.op) := by
  obtain ⟨hbounds, hunread⟩ := h.refines
  cases c with
  | setPacketData pData =>
      rw [call, Call.op, Framing.slide]
      split
      · rename_i hroom
        have hfits : b.remainByte + pData.val.length ≤ packetDataBufferSize := by
          rw [h.remainByte]
          exact hroom
        obtain ⟨b', hset, hbounds', hunread'⟩ := setPacketData_of_fits hbounds hfits
        rw [hset]
        refine .some ⟨⟨hbounds', by rw [hunread', hunread]⟩, ?_⟩
        rw [rPos_of_setPacketData hset, h.wPos, h.rPos]
        rfl
      · rename_i hroom
        have hfits : packetDataBufferSize < b.remainByte + pData.val.length := by
          rw [h.remainByte]
          exact Nat.lt_of_not_le hroom
        rw [setPacketData_of_not_fits hbounds hfits]
        exact .none
  | getPacket =>
      rw [call, Call.op, Framing.slide, ← hunread, ← h.rPos]
      refine .some ⟨⟨cursorsInBounds_getPacket hbounds, ?_⟩, ?_⟩
      · rw [unread_getPacket]
        split
        · rfl
        · exact hunread
      · rw [rPos_getPacket]
        split
        · rfl
        · exact h.rPos

/-- The copies of a run, from a buffer that stands for a queue. -/
lemma along_copiesApart_iff (h : b.RefinesSliding q) (calls : List Call) :
    Runs.Along call CopiesApart b calls ↔
      Runs.Along (packetFraming.slide packetDataBufferSize)
        (Framing.Sliding.KeepsUp packetDataBufferSize) q (calls.map Call.op) :=
  Runs.along_iff_of_simulation (R := RefinesSliding)
    (fun _ _ c h => copiesApart_iff_keepsUp h c) (fun _ _ c h => call_refinesSliding h c) h calls

/-- **The copies of compactions over a run.** From `User::Clear` on, in any order of the two calls,
no compaction copies between overlapping ranges exactly if, whenever a chunk that fits reaches the
end of the block, no more bytes wait than the packets taken since the last compaction had. -/
theorem copiesApart_iff (b : RecvBuffer) (calls : List Call) :
    Runs.Along call CopiesApart b.clear calls ↔
      Runs.Along (packetFraming.slide packetDataBufferSize)
        (Framing.Sliding.KeepsUp packetDataBufferSize) {} (calls.map Call.op) :=
  along_copiesApart_iff b.refinesSliding_clear calls

/-- A `ROOM_LEAVE_REQUEST` that is taken, and nearly eight thousand bytes of a packet that is not
complete: the last of them reach the end of the block, with five bytes free at its front. -/
theorem not_copiesApart_backlog :
    ¬∀ (b : RecvBuffer) (calls : List Call), Runs.Along call CopiesApart b.clear calls := by
  intro h
  have hapart := h ⟨fun _ => 0, 0, 0⟩
    ([Call.setPacketData leaveRequest, Call.getPacket] ++ receives backlog)
  rw [along_copiesApart_iff (refinesSliding_clear _)] at hapart
  exact absurd hapart (by decide +kernel)

/-! ### A block that is never more than half full -/

/-- The block has room for the chunk of the call and for the waiting bytes twice. -/
def HalfEmpty (b : RecvBuffer) : Call → Prop
  | .setPacketData pData => 2 * b.remainByte + pData.val.length ≤ packetDataBufferSize
  | .getPacket => True

lemma halfEmpty_iff (h : b.RefinesSliding q) (c : Call) :
    b.HalfEmpty c ↔ q.HalfEmpty packetDataBufferSize c.op := by
  cases c with
  | setPacketData pData => rw [HalfEmpty, h.remainByte]; rfl
  | getPacket => exact Iff.rfl

/-- Where every chunk finds room for the waiting bytes twice, no copy overlaps. -/
theorem copiesApart_of_half {calls : List Call} (h : Runs.Along call HalfEmpty b.clear calls) :
    Runs.Along call CopiesApart b.clear calls := by
  have hq := b.refinesSliding_clear
  rw [along_copiesApart_iff hq]
  refine Framing.along_keepsUp_of_half ?_
  exact (Runs.along_iff_of_simulation (R := RefinesSliding)
    (fun _ _ c h => halfEmpty_iff h c) (fun _ _ c h => call_refinesSliding h c) hq calls).mp h

end RecvBuffer

end CKGameServer
