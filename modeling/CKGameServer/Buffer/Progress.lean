import Mathlib.Algebra.BigOperators.Group.List.Basic
import Mathlib.Algebra.Order.BigOperators.Group.List
import CKGameServer.Buffer.ReceiveBuffer

/-!
How far `GetPacket` gets in the bytes a client sends (`User::SetPacketData`, `User::GetPacket`).

The cursor advances by a length that the client chooses, and that is compared with the bytes there
are, but not with the length of a header.

* `Traffic`, `traffic`: the bytes received so far and the packets delivered, each with its place in
  what was received, beside the buffer.
* `Tracked`: the packets follow one another in the stream, and their lengths add up to what is read.
* `Progressing`: every packet has advanced the cursor by a header at least, so that there are not
  more than one for five bytes and none is delivered twice.
* `progressing_iff`: it holds throughout a run exactly if no call finds a packet that is shorter
  than its header.
-/

namespace CKGameServer

open Memory

namespace RecvBuffer

/-- A packet that `GetPacket` has returned: where in the stream it begins, its `DataSize`, and how
far the call advanced `mPakcetDataBufferRPos`. -/
structure Delivery where
  offset : ℕ
  dataSize : ℕ
  advance : ℕ
  deriving DecidableEq

/-- What has come in and gone out. -/
structure Traffic where
  received : ℕ := 0
  delivered : List Delivery := []

/-- What a call adds. -/
def Traffic.next (s : RecvBuffer × Traffic) : Call → Traffic
  | .setPacketData pData => { s.2 with received := s.2.received + pData.val.length }
  | .getPacket =>
    let packet := s.1.getPacket.1
    if packet.pDataPtr.isSome then
      { s.2 with
        delivered := s.2.delivered ++
          [{ offset := s.2.received - s.1.remainByte
             dataSize := packet.dataSize
             advance := s.1.getPacket.2.mPakcetDataBufferRPos - s.1.mPakcetDataBufferRPos }] }
    else s.2

/-- A call on the buffer with its traffic. -/
def traffic : RecvBuffer × Traffic → Call → Option (RecvBuffer × Traffic) :=
  Runs.withHistory call fun s c _ => Traffic.next s c

/-- **Framing progress**: every packet has advanced the cursor by a header at least, there are at
most as many as headers fit into the bytes received, and no two of them share a byte. -/
structure Progressing (s : RecvBuffer × Traffic) : Prop where
  advances : ∀ d ∈ s.2.delivered, packetHeaderLength ≤ d.advance
  bounded : s.2.delivered.length ≤ s.2.received / packetHeaderLength
  once : s.2.delivered.Pairwise fun d e => d.offset < e.offset ∧ d.offset + d.dataSize ≤ e.offset

/-- The call finds no complete packet, or one whose length field covers its header. -/
def CoversHeader (s : RecvBuffer × Traffic) : Call → Prop
  | .setPacketData _ => True
  | .getPacket => packetFraming.BeginsFrame s.1.unread →
      packetHeaderLength ≤ packetFraming.frameLength s.1.unread

/-- What holds of the traffic whatever the client sends. -/
structure Tracked (s : RecvBuffer × Traffic) : Prop where
  cursorsInBounds : s.1.CursorsInBounds
  read : (s.2.delivered.map Delivery.advance).sum + s.1.remainByte = s.2.received
  ends : ∀ d ∈ s.2.delivered, d.offset + d.dataSize + s.1.remainByte ≤ s.2.received
  advance : ∀ d ∈ s.2.delivered, d.advance = d.dataSize
  inOrder : s.2.delivered.Pairwise fun d e => d.offset + d.dataSize ≤ e.offset

section Traffic

variable {s s' : RecvBuffer × Traffic} {b : RecvBuffer}

lemma tracked_clear (b : RecvBuffer) : Tracked (b.clear, {}) :=
  ⟨b.cursorsInBounds_clear, rfl, fun _ hd => (List.not_mem_nil hd).elim,
    fun _ hd => (List.not_mem_nil hd).elim, .nil⟩

lemma progressing_clear (b : RecvBuffer) : Progressing (b.clear, {}) :=
  ⟨fun _ hd => (List.not_mem_nil hd).elim, Nat.zero_le _, .nil⟩

/-- A call that finds no complete packet delivers nothing. -/
lemma next_getPacket_of_not_beginsFrame (h : ¬packetFraming.BeginsFrame s.1.unread) :
    Traffic.next s .getPacket = s.2 := by
  simp [Traffic.next, getPacket_of_not_beginsFrame h]

/-- A call that finds one delivers it, and advances the cursor by its length field. -/
lemma next_getPacket_of_beginsFrame (h : packetFraming.BeginsFrame s.1.unread) :
    Traffic.next s .getPacket = { s.2 with
      delivered := s.2.delivered ++ [{ offset := s.2.received - s.1.remainByte
                                       dataSize := packetFraming.frameLength s.1.unread
                                       advance := packetFraming.frameLength s.1.unread }] } := by
  simp [Traffic.next, getPacket_of_beginsFrame h]

/-- The packet is no longer unread. -/
lemma remainByte_getPacket (h : packetFraming.BeginsFrame b.unread) :
    packetFraming.frameLength b.unread ≤ b.remainByte ∧
      b.getPacket.2.remainByte = b.remainByte - packetFraming.frameLength b.unread := by
  refine ⟨b.unread_length ▸ h.2, ?_⟩
  rw [← unread_length, unread_getPacket, if_pos h, List.length_drop, unread_length]

/-- A chunk adds to what is received and to what is unread. -/
lemma Tracked.receive {pData : Chunk} (h : Tracked s)
    (hset : s.1.setPacketData pData.val = some b) :
    Tracked (b, Traffic.next s (.setPacketData pData)) := by
  have hread := h.read
  have hremain := remainByte_of_setPacketData h.cursorsInBounds hset
  have hbounds := (unread_of_setPacketData h.cursorsInBounds hset).2.1
  refine ⟨hbounds, ?_, fun d hd => ?_, h.advance, h.inOrder⟩
  · simp only [Traffic.next, hremain]
    omega
  · have hend := h.ends d hd
    simp only [Traffic.next, hremain]
    omega

/-- A packet begins where the unread bytes do, behind all that were delivered before. -/
lemma Tracked.deliver (h : Tracked s) (hframe : packetFraming.BeginsFrame s.1.unread) :
    Tracked (s.1.getPacket.2, Traffic.next s .getPacket) := by
  have hread := h.read
  obtain ⟨hle, hremain⟩ := remainByte_getPacket hframe
  rw [next_getPacket_of_beginsFrame hframe]
  refine ⟨cursorsInBounds_getPacket h.cursorsInBounds, ?_, fun d hd => ?_, fun d hd => ?_, ?_⟩
  · simp only [List.map_append, List.map_singleton, List.sum_append, List.sum_singleton, hremain]
    omega
  · simp only [hremain]
    rcases List.mem_append.mp hd with hd | hd
    · have hend := h.ends d hd
      omega
    · rw [List.mem_singleton.mp hd]
      simp only
      omega
  · rcases List.mem_append.mp hd with hd | hd
    · exact h.advance d hd
    · rw [List.mem_singleton.mp hd]
  · refine List.pairwise_append.mpr ⟨h.inOrder, List.pairwise_singleton _ _, ?_⟩
    intro d hd e he
    have hend := h.ends d hd
    rw [List.mem_singleton.mp he]
    simp only
    omega

/-- **Every call keeps track.** -/
lemma Tracked.step {c : Call} (h : Tracked s) (hstep : traffic s c = some s') : Tracked s' := by
  obtain ⟨b', hcall, rfl⟩ := Option.map_eq_some_iff.mp hstep
  cases c with
  | setPacketData pData => exact h.receive hcall
  | getPacket =>
      obtain rfl := Option.some.inj hcall
      show Tracked (s.1.getPacket.2, Traffic.next s .getPacket)
      by_cases hframe : packetFraming.BeginsFrame s.1.unread
      · exact h.deliver hframe
      · rw [next_getPacket_of_not_beginsFrame hframe, getPacket_of_not_beginsFrame hframe]
        exact h

/-- With its traffic tracked a run progresses as long as every packet advances the cursor. -/
lemma Tracked.progressing_iff_advances (h : Tracked s) :
    Progressing s ↔ ∀ d ∈ s.2.delivered, packetHeaderLength ≤ d.advance := by
  refine ⟨Progressing.advances, fun hadvances => ⟨hadvances, ?_, ?_⟩⟩
  · have hsum : (s.2.delivered.map Delivery.advance).length • packetHeaderLength ≤
        (s.2.delivered.map Delivery.advance).sum :=
      List.card_nsmul_le_sum _ _ fun n hn => by
        obtain ⟨d, hd, rfl⟩ := List.mem_map.mp hn
        exact hadvances d hd
    have hread := h.read
    rw [List.length_map, Nat.nsmul_eq_mul] at hsum
    exact (Nat.le_div_iff_mul_le (by decide)).mpr (by omega)
  · refine h.inOrder.imp_of_mem fun hd _ hle => ⟨?_, hle⟩
    have hsize := hadvances _ hd
    rw [h.advance _ hd, packetHeaderLength] at hsize
    omega

/-- A call keeps the progress exactly if the packet it finds covers its header. -/
lemma keeps_progressing_iff {c : Call} (h : Tracked s) (hprogress : Progressing s) :
    (∀ s', traffic s c = some s' → Progressing s') ↔ CoversHeader s c := by
  cases c with
  | setPacketData pData =>
      refine iff_of_true (fun s' hstep => ?_) trivial
      rw [(h.step hstep).progressing_iff_advances]
      obtain ⟨b', -, rfl⟩ := Option.map_eq_some_iff.mp hstep
      exact hprogress.advances
  | getPacket =>
      have hstep : traffic s .getPacket = some (s.1.getPacket.2, Traffic.next s .getPacket) := rfl
      rw [hstep]
      simp only [Option.some.injEq, forall_eq']
      rw [(h.step hstep).progressing_iff_advances, CoversHeader]
      by_cases hframe : packetFraming.BeginsFrame s.1.unread
      · simp only [next_getPacket_of_beginsFrame hframe, List.mem_append, List.mem_singleton]
        constructor
        · exact fun hall _ => hall _ (.inr rfl)
        · rintro hcovers d (hd | rfl)
          · exact hprogress.advances d hd
          · exact hcovers hframe
      · rw [next_getPacket_of_not_beginsFrame hframe]
        exact iff_of_true hprogress.advances fun hframe' => absurd hframe' hframe

/-- **Framing progress over a run.** From `User::Clear` on, whatever chunks arrive and in any order
of the two calls, every packet advances the cursor by a header, at most one for five bytes is
returned and none twice, exactly as long as no call finds a packet that does not cover its
header. -/
theorem progressing_iff (b : RecvBuffer) (calls : List Call) :
    Runs.Always traffic Progressing (b.clear, {}) calls ↔
      Runs.Along traffic CoversHeader (b.clear, {}) calls :=
  Runs.always_iff_along (I := Tracked) (P := Progressing) (C := CoversHeader)
    (fun _ _ _ (h : Tracked _) hstep => h.step hstep)
    (fun _ _ h hprogress => keeps_progressing_iff h hprogress) calls (tracked_clear b)
    (progressing_clear b)

end Traffic

/-- `ROOM_LEAVE_REQUEST` with a length field of zero. -/
def emptyLength : Chunk := ⟨[0, 0, 215, 0, 0], by decide⟩

/-- Two calls return the packet, both from the start of the stream, and the cursor stands still. -/
theorem not_progressing_emptyLength :
    ¬Runs.Always traffic Progressing ((⟨fun _ => 0, 0, 0⟩ : RecvBuffer).clear, {})
      [.setPacketData emptyLength, .getPacket, .getPacket] := by
  intro h
  have hend : ∃ s, Runs.run traffic ((⟨fun _ => 0, 0, 0⟩ : RecvBuffer).clear, {})
      [.setPacketData emptyLength, .getPacket, .getPacket] = some s ∧
        s.2.delivered = [⟨0, 0, 0⟩, ⟨0, 0, 0⟩] := ⟨_, rfl, by decide⟩
  obtain ⟨s, hrun, hdelivered⟩ := hend
  have hadvance := (h.of_run hrun).advances ⟨0, 0, 0⟩ (by simp [hdelivered])
  exact absurd hadvance (by decide)

end RecvBuffer

end CKGameServer
