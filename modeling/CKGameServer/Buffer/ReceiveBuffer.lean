import CKGameServer.Library.Runs
import CKGameServer.Model.User

/-!
The receive buffer of one connection (`User::SetPacketData`, `User::GetPacket`).

* `RecvBuffer.unread`: the bytes written and not yet read, which is what the buffer stands for;
  `setPacketData_of_fits` and `unread_getPacket` say what the two functions do to them.
* `setPacketData_of_not_fits`: a chunk that does not fit behind the unread bytes is written
  past the end of the block.
* `safe_iff_fits`: over a run of calls the cursors and the copies keep to the block exactly as
  long as every chunk fits.
-/

namespace CKGameServer

open Memory

namespace RecvBuffer

/-- The cursors are in order and inside the block. -/
def CursorsInBounds (b : RecvBuffer) : Prop :=
  b.mPakcetDataBufferRPos ≤ b.mPakcetDataBufferWPos ∧
    b.mPakcetDataBufferWPos ≤ packetDataBufferSize

/-- The bytes written and not yet read. -/
def unread (b : RecvBuffer) : Bytes := b.mPakcetDataBuffer.read b.mPakcetDataBufferRPos b.remainByte

variable {b b' : RecvBuffer} {pData : Bytes}

@[simp] lemma unread_length (b : RecvBuffer) : b.unread.length = b.remainByte := by simp [unread]

lemma cursorsInBounds_clear (b : RecvBuffer) : b.clear.CursorsInBounds :=
  ⟨le_rfl, Nat.zero_le _⟩

@[simp] lemma unread_clear (b : RecvBuffer) : b.clear.unread = [] := rfl

/-! ### `SetPacketData` -/

/-- The bytes of a chunk are copied behind the unread bytes if the block has room for them. -/
lemma appendData_of_le (hb : b.CursorsInBounds)
    (h : b.mPakcetDataBufferWPos + pData.length ≤ packetDataBufferSize) :
    ∃ b', b.appendData pData = some b' ∧ b'.CursorsInBounds ∧
      b'.unread = b.unread ++ pData := by
  obtain ⟨hr, hw⟩ := hb
  rw [appendData, copyMemory, if_pos h]
  refine ⟨_, rfl, ⟨?_, h⟩, ?_⟩
  · simp only
    omega
  · have hwpos : b.mPakcetDataBufferWPos = b.mPakcetDataBufferRPos + b.remainByte := by
      rw [remainByte]; omega
    have hremain : b.mPakcetDataBufferWPos + pData.length - b.mPakcetDataBufferRPos =
        b.remainByte + pData.length := by
      rw [remainByte]; omega
    calc (b.mPakcetDataBuffer.write b.mPakcetDataBufferWPos (View.ofBytes pData)
          pData.length).read b.mPakcetDataBufferRPos
            (b.mPakcetDataBufferWPos + pData.length - b.mPakcetDataBufferRPos)
        = (b.mPakcetDataBuffer.write (b.mPakcetDataBufferRPos + b.remainByte) (View.ofBytes pData)
            pData.length).read b.mPakcetDataBufferRPos (b.remainByte + pData.length) := by
          rw [hremain, hwpos]
      _ = b.unread ++ (View.ofBytes pData).read 0 pData.length := View.read_write_append ..
      _ = b.unread ++ pData := by rw [View.read_ofBytes]

lemma appendData_of_lt
    (h : packetDataBufferSize < b.mPakcetDataBufferWPos + pData.length) :
    b.appendData pData = none := by
  rw [appendData, copyMemory, if_neg (by omega), Option.map_none]

/-- The compaction keeps the unread bytes and moves them to the front. -/
lemma compact_spec (hb : b.CursorsInBounds) :
    ∃ b', b.compact = some b' ∧ b'.CursorsInBounds ∧ b'.unread = b.unread ∧
      b'.mPakcetDataBufferWPos = b.remainByte := by
  obtain ⟨hr, hw⟩ := hb
  rw [compact]
  split
  · rw [copyMemory, if_pos (by omega)]
    refine ⟨_, rfl, ⟨Nat.zero_le _, ?_⟩, ?_, rfl⟩
    · simp only
      omega
    · rw [unread, unread, remainByte]
      simp only [Nat.sub_zero]
      rw [View.read_write_self]
      exact View.read_congr fun k _ => by rw [packetPtr, View.shift_apply, Nat.zero_add]
  · rename_i hremain
    have h0 : b.remainByte = 0 := by rw [remainByte]; omega
    refine ⟨_, rfl, ⟨le_rfl, Nat.zero_le _⟩, ?_, h0.symm⟩
    rw [unread, unread, h0]
    rfl

/-- **`SetPacketData` of a chunk that fits** behind the unread bytes appends it to them. -/
theorem setPacketData_of_fits (hb : b.CursorsInBounds)
    (h : b.remainByte + pData.length ≤ packetDataBufferSize) :
    ∃ b', b.setPacketData pData = some b' ∧ b'.CursorsInBounds ∧
      b'.unread = b.unread ++ pData := by
  rw [setPacketData]
  split
  · obtain ⟨c, hc, hcb, hcu, hcw⟩ := compact_spec hb
    rw [hc, Option.bind_some, ← hcu]
    exact appendData_of_le hcb (by rw [hcw]; exact h)
  · exact appendData_of_le hb (by omega)

/-- A chunk that does not fit is written past the end: the compaction does not look again. -/
lemma setPacketData_of_not_fits (hb : b.CursorsInBounds)
    (h : packetDataBufferSize < b.remainByte + pData.length) : b.setPacketData pData = none := by
  have hwpos : b.remainByte ≤ b.mPakcetDataBufferWPos := by rw [remainByte]; omega
  obtain ⟨c, hc, -, -, hcw⟩ := compact_spec hb
  rw [setPacketData, if_pos (by omega), hc, Option.bind_some]
  exact appendData_of_lt (by rw [hcw]; exact h)

/-- A chunk that has been copied did fit, and stands behind the unread bytes. -/
lemma unread_of_setPacketData (hb : b.CursorsInBounds) (h : b.setPacketData pData = some b') :
    b.remainByte + pData.length ≤ packetDataBufferSize ∧ b'.CursorsInBounds ∧
      b'.unread = b.unread ++ pData := by
  have hfits : b.remainByte + pData.length ≤ packetDataBufferSize := by
    by_contra hfits
    rw [setPacketData_of_not_fits hb (Nat.lt_of_not_le hfits)] at h
    cases h
  obtain ⟨c, hc, hbounds, hunread⟩ := setPacketData_of_fits hb hfits
  obtain rfl := Option.some.inj (hc.symm.trans h)
  exact ⟨hfits, hbounds, hunread⟩

lemma remainByte_of_setPacketData (hb : b.CursorsInBounds) (h : b.setPacketData pData = some b') :
    b'.remainByte = b.remainByte + pData.length := by
  rw [← unread_length, (unread_of_setPacketData hb h).2.2, List.length_append, unread_length]

/-! ### `GetPacket` -/

/-- The framing of the protocol: a header of five bytes, the length in its first two. -/
def packetFraming : Framing UInt8 where
  header := packetHeaderLength
  frameLength s := packetLengthAt (View.ofBytes s) 0
  frameLength_append s t hs := View.natLE_congr fun k hk => by
    rw [packetHeaderLength] at hs
    rw [View.ofBytes, View.ofBytes, List.getD_append _ _ _ _ (by omega)]

/-- The length field at the read position is the one of the unread bytes. -/
lemma packetLengthAt_packetPtr (h : packetHeaderLength ≤ b.remainByte) :
    packetLengthAt b.packetPtr 0 = packetFraming.frameLength b.unread :=
  View.natLE_congr fun k hk => by
    rw [packetHeaderLength] at h
    have hk' : k < b.unread.length := by rw [unread_length]; omega
    rw [packetPtr, View.shift_apply, Nat.zero_add, View.ofBytes,
      List.getD_eq_getElem _ _ hk']
    exact (View.read_getElem _ _ _ hk').symm

/-- `GetPacket` finds nothing where the unread bytes begin with no complete packet. -/
lemma getPacket_of_not_beginsFrame (h : ¬packetFraming.BeginsFrame b.unread) :
    b.getPacket = ({}, b) := by
  rw [getPacket]
  split
  · rfl
  · rename_i hheader
    rw [packetLengthAt_packetPtr (by omega), if_pos]
    by_contra hlen
    refine h ⟨?_, ?_⟩
    · rw [unread_length]
      exact Nat.le_of_not_lt hheader
    · rw [unread_length]
      omega

/-- `GetPacket` takes the packet the unread bytes begin with. -/
lemma getPacket_of_beginsFrame (h : packetFraming.BeginsFrame b.unread) :
    b.getPacket =
      ({ packetId := packetIdAt b.packetPtr 0
         dataSize := packetFraming.frameLength b.unread
         pDataPtr := some b.mPakcetDataBufferRPos },
       { b with mPakcetDataBufferRPos :=
           b.mPakcetDataBufferRPos + packetFraming.frameLength b.unread }) := by
  have h1 : packetHeaderLength ≤ b.remainByte := b.unread_length ▸ h.1
  have h2 : packetFraming.frameLength b.unread ≤ b.remainByte := b.unread_length ▸ h.2
  rw [getPacket, if_neg (Nat.not_lt.mpr h1), packetLengthAt_packetPtr h1,
    if_neg (Nat.not_lt.mpr h2)]

/-- `GetPacket` moves the read position, and writes nothing. -/
lemma mPakcetDataBuffer_getPacket (b : RecvBuffer) :
    b.getPacket.2.mPakcetDataBuffer = b.mPakcetDataBuffer := by
  by_cases h : packetFraming.BeginsFrame b.unread
  · rw [getPacket_of_beginsFrame h]
  · rw [getPacket_of_not_beginsFrame h]

lemma mPakcetDataBufferWPos_getPacket (b : RecvBuffer) :
    b.getPacket.2.mPakcetDataBufferWPos = b.mPakcetDataBufferWPos := by
  by_cases h : packetFraming.BeginsFrame b.unread
  · rw [getPacket_of_beginsFrame h]
  · rw [getPacket_of_not_beginsFrame h]

lemma cursorsInBounds_getPacket (hb : b.CursorsInBounds) : b.getPacket.2.CursorsInBounds := by
  by_cases h : packetFraming.BeginsFrame b.unread
  · have hlen := h.2
    obtain ⟨hr, hw⟩ := hb
    rw [unread_length, remainByte] at hlen
    rw [getPacket_of_beginsFrame h]
    refine ⟨?_, hw⟩
    simp only
    omega
  · rwa [getPacket_of_not_beginsFrame h]

/-- **`GetPacket` drops the packet it returns** from the unread bytes, and nothing else. -/
theorem unread_getPacket (b : RecvBuffer) :
    b.getPacket.2.unread =
      if packetFraming.BeginsFrame b.unread then
        b.unread.drop (packetFraming.frameLength b.unread)
      else b.unread := by
  by_cases h : packetFraming.BeginsFrame b.unread
  · rw [if_pos h, getPacket_of_beginsFrame h]
    have hlen : packetFraming.frameLength b.unread ≤ b.remainByte := b.unread_length ▸ h.2
    generalize packetFraming.frameLength b.unread = len at hlen ⊢
    calc b.mPakcetDataBuffer.read (b.mPakcetDataBufferRPos + len)
          (b.mPakcetDataBufferWPos - (b.mPakcetDataBufferRPos + len))
        = b.mPakcetDataBuffer.read (b.mPakcetDataBufferRPos + len) (b.remainByte - len) := by
          rw [remainByte, Nat.sub_add_eq]
      _ = (b.mPakcetDataBuffer.read b.mPakcetDataBufferRPos
            (len + (b.remainByte - len))).drop len := (View.read_drop ..).symm
      _ = b.unread.drop len := by rw [Nat.add_sub_cancel' hlen, unread]
  · rw [if_neg h, getPacket_of_not_beginsFrame h]

/-! ### Runs of one connection -/

/-- A call on the buffer: the receive thread or the process thread. -/
inductive Call where
  | setPacketData (pData : Chunk)
  | getPacket

/-- The effect of a call. -/
def call (b : RecvBuffer) : Call → Option RecvBuffer
  | .setPacketData pData => b.setPacketData pData.val
  | .getPacket => some b.getPacket.2

/-- Whatever the call, the cursors stay in order. -/
lemma cursorsInBounds_call {c : Call} (hb : b.CursorsInBounds) (h : b.call c = some b') :
    b'.CursorsInBounds := by
  cases c with
  | setPacketData pData => exact (unread_of_setPacketData hb h).2.1
  | getPacket => exact Option.some.inj h ▸ cursorsInBounds_getPacket hb

/-- The call copies inside the block only and leaves the cursors in order inside it. -/
def SafeCall (b : RecvBuffer) (c : Call) : Prop :=
  ∃ b', b.call c = some b' ∧ b'.CursorsInBounds

/-- The chunk of the call, if it has one, fits behind the unread bytes. -/
def FitsCall (b : RecvBuffer) : Call → Prop
  | .setPacketData pData => b.remainByte + pData.val.length ≤ packetDataBufferSize
  | .getPacket => True

/-- A call is safe exactly when its chunk fits. -/
lemma safeCall_iff (hb : b.CursorsInBounds) (c : Call) : b.SafeCall c ↔ b.FitsCall c := by
  cases c with
  | setPacketData pData =>
      constructor
      · rintro ⟨b', hb', -⟩
        by_contra hfits
        have hnone := setPacketData_of_not_fits hb (Nat.lt_of_not_le hfits)
        rw [call, hnone] at hb'
        cases hb'
      · intro hfits
        obtain ⟨b', hb', hbounds, -⟩ := setPacketData_of_fits hb hfits
        exact ⟨b', hb', hbounds⟩
  | getPacket => exact ⟨fun _ => trivial, fun _ => ⟨_, rfl, cursorsInBounds_getPacket hb⟩⟩

/-- In a run that comes to its end every chunk has fitted. -/
lemma along_fits_of_run {calls : List Call} (hb : b.CursorsInBounds)
    (h : Runs.run call b calls = some b') : Runs.Along call FitsCall b calls :=
  Runs.along_of_run (P := CursorsInBounds)
    (fun _ c _ hb hcall => ⟨(safeCall_iff hb c).mp ⟨_, hcall, cursorsInBounds_call hb hcall⟩,
      cursorsInBounds_call hb hcall⟩) hb h

/-- **The receive buffer over a run.** From `User::Clear` on, in any order of the two calls,
every call keeps to the block exactly if every chunk fits behind the unread bytes it finds. -/
theorem safe_iff_fits (b : RecvBuffer) (calls : List Call) :
    Runs.Along call SafeCall b.clear calls ↔ Runs.Along call FitsCall b.clear calls :=
  Runs.along_iff_along (P := CursorsInBounds) (fun _ c hb => safeCall_iff hb c)
    (fun _ _ _ _ ⟨_, hcall, hbounds⟩ hcall' => by
      rw [hcall, Option.some.injEq] at hcall'
      exact hcall' ▸ hbounds)
    calls b.cursorsInBounds_clear

/-- A chunk of 256 bytes that a client may send. -/
def fullChunk : Chunk := ⟨List.replicate maxSockRecvBuf 255, by simp⟩

lemma fullChunk_length : fullChunk.val.length = maxSockRecvBuf := List.length_replicate

/-- Chunks of the byte 255 begin no complete packet: their length field says 65535. -/
lemma not_beginsFrame_replicate {n : ℕ} (hn : n < 65535) :
    ¬packetFraming.BeginsFrame (List.replicate n 255) := by
  rintro ⟨h1, h2⟩
  rw [List.length_replicate] at h1 h2
  have hheader : 5 ≤ n := h1
  have hlen : packetFraming.frameLength (List.replicate n 255) = 65535 := by
    show (View.ofBytes (List.replicate n 255)).natLE 0 2 = 65535
    have h0 : (List.replicate n (255 : UInt8)).getD 0 0 = 255 := List.getD_replicate _ (by omega)
    have h1 : (List.replicate n (255 : UInt8)).getD 1 0 = 255 := List.getD_replicate _ (by omega)
    simp only [View.natLE, View.ofBytes, Nat.zero_add, h0, h1]
    rfl
  omega

/-- After `k` such chunks, each followed by a `GetPacket`, all their bytes are unread. -/
lemma run_fullChunks (b : RecvBuffer) {k : ℕ} (hk : k ≤ 31) :
    ∃ b', Runs.run call b.clear
        (List.replicate k [Call.setPacketData fullChunk, .getPacket]).flatten = some b' ∧
      b'.CursorsInBounds ∧ b'.unread = List.replicate (256 * k) 255 := by
  induction k with
  | zero => exact ⟨b.clear, rfl, b.cursorsInBounds_clear, rfl⟩
  | succ k ih =>
      obtain ⟨c, hrun, hc, hunread⟩ := ih (by omega)
      have hremain : c.remainByte = 256 * k := by
        rw [← unread_length, hunread, List.length_replicate]
      have hfits : c.remainByte + fullChunk.val.length ≤ packetDataBufferSize := by
        rw [hremain, fullChunk_length, maxSockRecvBuf, packetDataBufferSize]
        omega
      obtain ⟨d, hset, hd, hdu⟩ := setPacketData_of_fits hc hfits
      have hdu' : d.unread = List.replicate (256 * (k + 1)) 255 := by
        rw [hdu, hunread, fullChunk, List.replicate_append_replicate]
        rfl
      have hget : d.getPacket.2 = d := by
        rw [getPacket_of_not_beginsFrame]
        rw [hdu']
        exact not_beginsFrame_replicate (by omega)
      refine ⟨d, ?_, hd, hdu'⟩
      rw [List.replicate_succ', List.flatten_append, Runs.run_append, hrun]
      simp only [Option.bind_some, List.flatten_cons, List.flatten_nil, List.append_nil,
        Runs.run_cons, Runs.run_nil, call, hset, hget]

/-- Thirty-two chunks of 256 bytes, each followed by a `GetPacket` that waits for the rest of a
packet of 65535 bytes: the last chunk is copied past the end of the block. -/
theorem setPacketData_overflow :
    ¬∀ (b : RecvBuffer) (calls : List Call), Runs.Along call SafeCall b.clear calls := by
  intro h
  obtain ⟨b', hrun, hb', hunread⟩ := run_fullChunks ⟨fun _ => 0, 0, 0⟩ (le_refl 31)
  have hsafe := (h _ (_ ++ Call.setPacketData fullChunk :: [])).of_run hrun
  have hfits := (safeCall_iff hb' _).mp hsafe
  rw [FitsCall, ← unread_length, hunread, List.length_replicate, fullChunk_length] at hfits
  exact absurd hfits (by decide)

end RecvBuffer

end CKGameServer
