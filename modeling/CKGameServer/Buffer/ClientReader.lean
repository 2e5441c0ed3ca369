import CKGameServer.Library.Runs
import CKGameServer.Model.ReadTcpDataThread
import CKGameServer.Packets.Layout

/-!
The client reads the stream of the server (`ReadTcpDataThread`).

* `memcpy_eq`, `subArray_eq`: the copy loop copies the range.
* `Reader.Placed`: where the offset and the buffers stand between iterations; `Placed.fits`: what
  `Receive` is asked for has a place.
* `Reader.Holds`: besides, the buffers hold what has been received of the current packet.
* `Connection.ReadsPackets`: packets are posted in order, and a request ends with the packet.
* `Connection.reads_packets`: so it is however the stream is split.
-/

namespace CKGameServer

open Memory

namespace NetworkClient

/-! ### Copies -/

lemma memcpy_eq (dest : View) (d : ℕ) (src : View) (s len : ℕ) :
    memcpy dest d src s len = dest.write d (src.shift s) len := by
  induction len generalizing dest d s with
  | zero =>
      funext a
      rw [memcpy, View.write_apply_out (by omega)]
  | succ len ih =>
      rw [memcpy, ih]
      funext a
      by_cases hin : d + 1 ≤ a ∧ a < d + 1 + len
      · rw [View.write_apply_in hin.1 hin.2, View.write_apply_in (by omega) (by omega),
          View.shift_apply, View.shift_apply]
        congr 1
        omega
      · rw [View.write_apply_out (by omega)]
        by_cases hd : a = d
        · subst hd
          rw [Function.update_self, View.write_apply_in le_rfl (by omega), View.shift_apply,
            Nat.sub_self, Nat.add_zero]
        · rw [Function.update_of_ne hd, View.write_apply_out (by omega)]

lemma subArray_eq (array : View) (offset length : ℕ) :
    subArray array offset length = array.read offset length := by
  rw [subArray, memcpy_eq, View.read_write_self, View.read_shift, Nat.add_zero]

/-! ### The variables between iterations -/

/-- The first phase is short of a header and has no buffer. The second begins with the header, and
has then a buffer of the length in it. -/
structure Reader.Placed (r : Reader) : Prop where
  header : r.bBase = false → r.offset < packetBaseSize ∧ r.clientBuffer = none
  start : r.bBase = true → r.clientBuffer = none → r.offset = packetBaseSize
  payload : r.bBase = true → ∀ b, r.clientBuffer = some b →
    b.length = r.pbase.length ∧ packetBaseSize ≤ r.offset ∧ r.offset ≤ b.length

namespace Reader

variable {r : Reader} {b : ByteBuffer} {bytes part : Bytes}

/-- The buffer of the second phase. -/
lemma Placed.allocated (hr : r.Placed) (hbase : r.bBase = true) (hb : r.allocated = some b) :
    b.length = r.pbase.length ∧ packetBaseSize ≤ r.offset ∧ r.offset ≤ b.length := by
  rw [Reader.allocated] at hb
  cases hclient : r.clientBuffer with
  | some b' =>
      rw [hclient] at hb
      obtain rfl := Option.some.inj hb
      exact hr.payload hbase _ hclient
  | none =>
      rw [hclient] at hb
      simp only at hb
      split_ifs at hb with hlength
      obtain rfl := Option.some.inj hb
      have hoffset := hr.start hbase hclient
      exact ⟨rfl, hoffset.ge, hoffset.trans_le hlength⟩

/-- **What `Receive` is asked for has a place** in the buffer. -/
lemma Placed.fits (hr : r.Placed) {call : ReceiveCall} (hcall : r.receiveCall = some call) :
    call.Fits := by
  rw [receiveCall] at hcall
  cases hbase : r.bBase with
  | false =>
      rw [hbase] at hcall
      obtain rfl := Option.some.inj hcall
      have hoffset := (hr.header hbase).1
      refine ⟨?_, ?_⟩
      · show (0 : ℤ) ≤ packetBaseSize - r.offset
        omega
      · show (r.offset : ℤ) + (packetBaseSize - r.offset) ≤ packetBaseSize
        omega
  | true =>
      rw [hbase] at hcall
      obtain ⟨b, hb, rfl⟩ := Option.map_eq_some_iff.mp hcall
      obtain ⟨hlength, -, hoffset⟩ := hr.allocated hbase hb
      refine ⟨?_, ?_⟩
      · show (0 : ℤ) ≤ r.pbase.length - r.offset
        omega
      · show (r.offset : ℤ) + (r.pbase.length - r.offset) ≤ b.length
        omega

/-- An iteration of the first phase. -/
lemma iterate_header (hbase : r.bBase = false) (received : Option Bytes) :
    r.iterate received = r.iterateHeader received := by
  rw [iterate, hbase]
  rfl

/-- An iteration of the second phase. -/
lemma iterate_payload (hbase : r.bBase = true) (hb : r.allocated = some b)
    (received : Option Bytes) : r.iterate received = r.iteratePayload b received := by
  rw [iterate, hbase, hb]
  rfl

/-- The first phase stays placed. -/
lemma Placed.header_next (hr : r.Placed) (hbase : r.bBase = false)
    (hbytes : r.offset + bytes.length ≤ packetBaseSize) (buffer : View) :
    Placed { r with
      packetBaseBuffer := buffer
      offset := r.offset + bytes.length
      bBase := r.offset + bytes.length = packetBaseSize } where
  header h := by
    have hne : r.offset + bytes.length ≠ packetBaseSize := of_decide_eq_false h
    exact ⟨lt_of_le_of_ne hbytes hne, (hr.header hbase).2⟩
  start h _ := of_decide_eq_true h
  payload _ b hb := by
    rw [(hr.header hbase).2] at hb
    cases hb

/-- So does the second, within a packet. -/
lemma Placed.payload_next (hr : r.Placed) (hbase : r.bBase = true) (hb : r.allocated = some b)
    {k : ℕ} (hk : r.offset + k ≤ r.pbase.length) (bytes : View) :
    Placed { r with clientBuffer := some { b with bytes := bytes }, offset := r.offset + k } where
  header h := absurd (hbase.symm.trans h) (by decide)
  start _ h := by cases h
  payload _ b' hb' := by
    obtain rfl := Option.some.inj hb'
    obtain ⟨hlength, hlow, -⟩ := hr.allocated hbase hb
    refine ⟨hlength, Nat.le_add_right_of_le hlow, ?_⟩
    show r.offset + k ≤ b.length
    omega

/-- At the end of a packet the first phase begins. -/
lemma placed_reset (r : Reader) :
    Placed { r with clientBuffer := none, offset := 0, bBase := false } where
  header _ := ⟨Nat.succ_pos _, rfl⟩
  start h := by cases h
  payload h := by cases h

end Reader

/-! ### What the buffers hold -/

/-- The buffers hold what has been received of the current packet. -/
structure Reader.Holds (r : Reader) (part : Bytes) : Prop extends r.Placed where
  offset_eq : r.offset = part.length
  base : ∀ k < packetBaseSize, k < part.length → r.packetBaseBuffer k = View.ofBytes part k
  client : ∀ b, r.clientBuffer = some b → b.bytes.read 0 part.length = part

namespace Reader

variable {r : Reader} {b : ByteBuffer} {part bytes p : Bytes}

/-- The first bytes of a list are those of what it begins with. -/
lemma ofBytes_append_lt {k : ℕ} (hk : k < part.length) :
    View.ofBytes (part ++ bytes) k = View.ofBytes part k := List.getD_append _ _ _ _ hk

/-- Nothing has been received. -/
lemma holds_nil (hr : r.Placed) (hoffset : r.offset = 0) : r.Holds [] where
  toPlaced := hr
  offset_eq := hoffset
  base _ _ h := absurd h (Nat.not_lt_zero _)
  client _ _ := rfl

/-- Bytes of the header arrive. -/
lemma Holds.header_next (hr : r.Holds part) (hbase : r.bBase = false)
    (hbytes : part.length + bytes.length ≤ packetBaseSize) :
    ∃ r', r.iterate (some bytes) = .next r' none ∧ r'.Holds (part ++ bytes) := by
  rw [iterate_header hbase, iterateHeader]
  refine ⟨_, rfl, hr.toPlaced.header_next hbase (hr.offset_eq ▸ hbytes) _, ?_, ?_, ?_⟩
  · rw [hr.offset_eq, List.length_append]
  · intro k hk hlength
    show r.packetBaseBuffer.write r.offset (View.ofBytes bytes) bytes.length k = _
    rw [hr.offset_eq]
    by_cases hold : k < part.length
    · rw [View.write_apply_out (.inl hold), hr.base k hk hold, ofBytes_append_lt hold]
    · rw [List.length_append] at hlength
      rw [View.write_apply_in (by omega) hlength, View.ofBytes, View.ofBytes,
        List.getD_append_right _ _ _ _ (by omega)]
  · intro b hb
    rw [(hr.header hbase).2] at hb
    cases hb

/-- The header is that of the packet. -/
lemma Holds.pbase_eq (hr : r.Holds part) (hlength : packetBaseSize ≤ part.length)
    (hpart : part <+: p) : r.pbase = .ofView (View.ofBytes p) := by
  obtain ⟨rest, rfl⟩ := hpart
  have hbytes : ∀ k < packetBaseSize, r.packetBaseBuffer k = View.ofBytes (part ++ rest) k :=
    fun k hk => by rw [hr.base k hk (by omega), ofBytes_append_lt (by omega)]
  have hfield : ∀ off n, off + n ≤ packetBaseSize →
      r.packetBaseBuffer.natLE off n = (View.ofBytes (part ++ rest)).natLE off n :=
    fun off n hn => View.natLE_congr fun k hk => hbytes (off + k) (by omega)
  rw [pbase, PacketBase.ofView, PacketBase.ofView, hfield 0 2 (by decide), hfield 2 2 (by decide),
    hbytes 4 (by decide)]

/-- The second phase has received the header. -/
lemma Holds.header_le (hr : r.Holds part) (hbase : r.bBase = true) :
    packetBaseSize ≤ part.length := by
  rw [← hr.offset_eq]
  cases hclient : r.clientBuffer with
  | none => exact (hr.start hbase hclient).ge
  | some b => exact (hr.payload hbase b hclient).2.1

/-- The buffer of the second phase holds what has been received, the header included. -/
lemma Holds.read_allocated (hr : r.Holds part) (hbase : r.bBase = true)
    (hb : r.allocated = some b) : b.bytes.read 0 part.length = part := by
  rw [allocated] at hb
  cases hclient : r.clientBuffer with
  | some b' =>
      rw [hclient] at hb
      obtain rfl := Option.some.inj hb
      exact hr.client _ hclient
  | none =>
      rw [hclient] at hb
      simp only at hb
      split_ifs at hb
      obtain rfl := Option.some.inj hb
      have hlength : part.length = packetBaseSize := by
        rw [← hr.offset_eq]
        exact hr.start hbase hclient
      rw [hlength, View.read_write_self, ← hlength]
      refine Eq.trans (View.read_congr fun k hk => ?_) (View.read_ofBytes part)
      exact hr.base (0 + k) (by omega) (by omega)

/-- Bytes of the payload arrive. With the last of them the packet is posted. -/
lemma Holds.payload_next (hr : r.Holds part) (hbase : r.bBase = true) (hb : r.allocated = some b)
    (hpos : 0 < bytes.length) (hbytes : part.length + bytes.length ≤ r.pbase.length) :
    (part.length + bytes.length < r.pbase.length ∧
        ∃ r', r.iterate (some bytes) = .next r' none ∧ r'.Holds (part ++ bytes)) ∨
      part.length + bytes.length = r.pbase.length ∧
        ∃ r', r.iterate (some bytes) =
            .next r' (some ⟨r.pbase, (part ++ bytes).drop packetBaseSize⟩) ∧ r'.Holds [] := by
  have hread : (b.bytes.write part.length (View.ofBytes bytes) bytes.length).read 0
      (part.length + bytes.length) = part ++ bytes := by
    have happend := View.read_write_append (v := b.bytes) 0 part.length bytes.length
      (View.ofBytes bytes)
    rwa [Nat.zero_add, hr.read_allocated hbase hb, View.read_ofBytes] at happend
  rw [iterate_payload hbase hb, iteratePayload]
  simp only [hpos, if_true, hr.offset_eq]
  rcases hbytes.lt_or_eq with hlt | heq
  · refine .inl ⟨hlt, ?_⟩
    rw [if_pos hlt]
    have hplaced := hr.toPlaced.payload_next hbase hb (k := bytes.length) (hr.offset_eq ▸ hbytes)
    rw [hr.offset_eq] at hplaced
    refine ⟨_, rfl, hplaced _, ?_, ?_, ?_⟩
    · rw [List.length_append]
    · intro k hk _
      have hlow := hr.header_le hbase
      rw [hr.base k hk (by omega), ofBytes_append_lt (by omega)]
    · intro b' hb'
      obtain rfl := Option.some.inj hb'
      rw [List.length_append]
      exact hread
  · refine .inr ⟨heq, ?_⟩
    rw [if_neg heq.not_lt, subArray_eq]
    refine ⟨_, ?_, holds_nil (placed_reset r) rfl⟩
    have hlow := hr.header_le hbase
    have hsplit := View.read_drop (v := b.bytes.write part.length (View.ofBytes bytes) bytes.length)
      0 packetBaseSize (part.length + bytes.length - packetBaseSize)
    rw [Nat.add_sub_cancel' (by omega), Nat.zero_add, hread] at hsplit
    rw [← heq, hsplit]

end Reader

/-! ### Packets -/

/-- A packet as it is posted. -/
def Packet.ofBytes (p : Bytes) : Packet where
  pbase := .ofView (View.ofBytes p)
  data := p.drop packetBaseSize

/-- A packet of the server: its length field is its length, and it carries a payload. -/
def IsServerPacket (p : Bytes) : Prop :=
  packetBaseSize < p.length ∧ (View.ofBytes p).natLE 0 2 = p.length

instance (p : Bytes) : Decidable (IsServerPacket p) := inferInstanceAs (Decidable (_ ∧ _))

lemma toNat_packetBaseLength (v : View) :
    (packetBaseLength v).toNat = (PacketBase.ofView v).length := by
  simpa [packetBaseLength, FieldType.decode, PacketBase.ofView] using v.natLE_lt 0 2

lemma toNat_packetBaseId (v : View) : (packetBaseId v).toNat = (PacketBase.ofView v).packetId := by
  have hshift : (v.shift 2).natLE 0 2 = v.natLE 2 2 :=
    View.natLE_congr fun k _ => by rw [View.shift_apply, Nat.zero_add]
  simpa [packetBaseId, FieldType.decode, PacketBase.ofView, hshift] using v.natLE_lt 2 2

/-- What a receiver is handed is the packet that is posted. -/
theorem receivePacket_eq {p : Bytes} (h : IsServerPacket p) (behind : View) :
    receivePacket p behind =
      (clientStructs.lookup (Packet.ofBytes p).pbase.packetId).map fun s =>
        byteArrayToStructure s (Packet.ofBytes p).data behind := by
  have hdata : (p.drop packetBaseSize).take (p.length - packetBaseSize) = p.drop packetBaseSize :=
    List.take_of_length_le (by rw [List.length_drop])
  have hlength : (PacketBase.ofView (View.ofBytes p)).length = p.length := h.2
  rw [receivePacket]
  simp only [toNat_packetBaseLength, toNat_packetBaseId]
  rw [hlength, hdata]
  rfl

namespace Connection

/-- The start of the thread. -/
def start (stream : Bytes) : Connection := { stream }

/-- `Receive` returns `k` bytes, and at least one. -/
def Delivers (c : Connection) (k : ℕ) : Prop := c.CanReceive k ∧ 0 < k

instance (c : Connection) (k : ℕ) : Decidable (c.Delivers k) := inferInstanceAs (Decidable (_ ∧ _))

/-- The packets in `before` are posted, and of those in `after` the bytes `part` are received. -/
structure Reading (c : Connection) (before after : List Bytes) (part : Bytes) : Prop where
  posted : c.posted = before.map Packet.ofBytes
  stream : part ++ c.stream = after.flatten
  within : ∀ p rest, after = p :: rest → part.length < p.length

/-- The thread runs, it has posted packets in order, and its next request fits its buffer and ends
with the packet. -/
structure ReadsPackets (packets : List Bytes) (c : Connection) : Prop where
  socket : c.socket = true
  thrown : c.thrown = false
  reading : ∃ before after part, packets = before ++ after ∧ c.Reading before after part ∧
    ∃ call, c.reader.receiveCall = some call ∧ call.Fits ∧ 0 < call.size ∧
      ∀ p rest, after = p :: rest → part.length + call.size ≤ p.length

/-- The invariant of the loop. -/
structure Invariant (packets : List Bytes) (c : Connection) : Prop where
  socket : c.socket = true
  thrown : c.thrown = false
  reading : ∃ before after part, packets = before ++ after ∧ c.Reading before after part ∧
    c.reader.Holds part

variable {c : Connection} {packets before after rest : List Bytes} {part p : Bytes}

/-- What has been received is the beginning of the current packet. -/
lemma Reading.begins (h : c.Reading before (p :: rest) part) : part <+: p := by
  have hstream := h.stream
  rw [List.flatten_cons] at hstream
  exact List.prefix_of_prefix_length_le ⟨_, hstream⟩ (List.prefix_append _ _)
    (h.within p rest rfl).le

/-- The next request. -/
lemma Reading.exists_call (h : c.Reading before after part) (hr : c.reader.Holds part)
    (hpackets : ∀ p ∈ after, IsServerPacket p) :
    ∃ call, c.reader.receiveCall = some call ∧ 0 < call.size ∧
      ∀ p rest, after = p :: rest → part.length + call.size ≤ p.length := by
  rw [Reader.receiveCall]
  cases hbase : c.reader.bBase with
  | false =>
      have hoffset := (hr.header hbase).1
      refine ⟨_, rfl, ?_, ?_⟩
      · show (0 : ℤ) < packetBaseSize - c.reader.offset
        omega
      · rintro p rest rfl
        have hlength := (hpackets p List.mem_cons_self).1
        show (part.length : ℤ) + (packetBaseSize - c.reader.offset) ≤ p.length
        rw [hr.offset_eq]
        omega
  | true =>
      have hheader := hr.header_le hbase
      cases after with
      | nil =>
          have hpart : part = [] := List.append_eq_nil_iff.mp h.stream |>.1
          rw [hpart] at hheader
          exact absurd hheader (by decide)
      | cons p rest =>
          have hp := hpackets p List.mem_cons_self
          have hlength : c.reader.pbase.length = p.length := by
            rw [hr.pbase_eq hheader h.begins]
            exact hp.2
          have hwithin := h.within p rest rfl
          obtain ⟨b, hb⟩ : ∃ b, c.reader.allocated = some b := by
            rw [Reader.allocated]
            cases c.reader.clientBuffer with
            | some b => exact ⟨b, rfl⟩
            | none => exact ⟨_, if_pos (by rw [hlength]; exact hp.1.le)⟩
          rw [if_pos rfl, hb]
          refine ⟨_, rfl, ?_, ?_⟩
          · show (0 : ℤ) < c.reader.pbase.length - c.reader.offset
            rw [hlength, hr.offset_eq]
            omega
          · rintro p' rest' hcons
            obtain ⟨rfl, rfl⟩ := List.cons.inj hcons
            show (part.length : ℤ) + (c.reader.pbase.length - c.reader.offset) ≤ p.length
            rw [hlength, hr.offset_eq]
            omega

lemma Invariant.readsPackets (h : c.Invariant packets)
    (hpackets : ∀ p ∈ packets, IsServerPacket p) : c.ReadsPackets packets where
  socket := h.socket
  thrown := h.thrown
  reading := by
    obtain ⟨before, after, part, rfl, hreading, hr⟩ := h.reading
    obtain ⟨call, hcall, hpos, hends⟩ := hreading.exists_call hr fun p hp =>
      hpackets p (List.mem_append_right _ hp)
    exact ⟨before, after, part, rfl, hreading, call, hcall, hr.toPlaced.fits hcall, hpos, hends⟩

/-- Where all has been received, all has been posted. -/
lemma ReadsPackets.posted_eq (h : c.ReadsPackets packets) (hstream : c.stream = []) :
    c.posted = packets.map Packet.ofBytes := by
  obtain ⟨before, after, part, rfl, hreading, -⟩ := h.reading
  cases after with
  | nil => rw [hreading.posted, List.append_nil]
  | cons p rest =>
      have hwithin := hreading.within p rest rfl
      have hlength := congrArg List.length hreading.stream
      rw [hstream, List.append_nil, List.flatten_cons, List.length_append] at hlength
      omega

/-- A pass in which `Receive` returns bytes. -/
lemma pass_of_placed (hsocket : c.socket = true) (hthrown : c.thrown = false)
    (hr : c.reader.Placed) {k : ℕ} {call : ReceiveCall} (hcall : c.reader.receiveCall = some call)
    {reader : Reader} {posted : Option Packet}
    (hnext : c.reader.iterate (some (c.stream.take k)) = .next reader posted) :
    c.pass k = { c with
      reader := reader
      stream := c.stream.drop k
      posted := c.posted ++ posted.toList } := by
  have hreceive : c.receive k = some (c.stream.take k) := by
    rw [receive, hcall, Option.bind_some, if_pos (hr.fits hcall)]
  rw [pass, if_pos ⟨hsocket, by simp [hthrown]⟩, hreceive, hnext]

/-- More of the current packet arrives. -/
lemma Reading.receive (h : c.Reading before (p :: rest) part) {k : ℕ} (hk : k ≤ c.stream.length)
    (hlt : part.length + k < p.length) (reader : Reader) :
    Reading { c with
        reader := reader
        stream := c.stream.drop k
        posted := c.posted ++ Option.toList none }
      before (p :: rest) (part ++ c.stream.take k) where
  posted := (List.append_nil _).trans h.posted
  stream := by
    rw [List.append_assoc, List.take_append_drop]
    exact h.stream
  within := by
    intro p' rest' hcons
    obtain ⟨rfl, rfl⟩ := List.cons.inj hcons
    rwa [List.length_append, List.length_take_of_le hk]

/-- The last of the current packet arrives, and it is posted. -/
lemma Reading.receive_last (h : c.Reading before (p :: rest) part)
    (hrest : ∀ q ∈ rest, IsServerPacket q) {k : ℕ} (hk : k ≤ c.stream.length)
    (heq : part.length + k = p.length) (reader : Reader) :
    part ++ c.stream.take k = p ∧ Reading { c with
        reader := reader
        stream := c.stream.drop k
        posted := c.posted ++ Option.toList (some (Packet.ofBytes p)) }
      (before ++ [p]) rest [] := by
  have hsplit : part ++ c.stream.take k ++ c.stream.drop k = p ++ rest.flatten := by
    rw [List.append_assoc, List.take_append_drop, h.stream, List.flatten_cons]
  obtain ⟨hpart, hstream⟩ := List.append_inj hsplit
    (by rw [List.length_append, List.length_take_of_le hk, heq])
  refine ⟨hpart, ?_, hstream, ?_⟩
  · rw [List.map_append, ← h.posted]
    rfl
  · rintro q rest' rfl
    exact Nat.zero_lt_of_lt (hrest q List.mem_cons_self).1

/-- **One iteration** keeps the invariant. -/
lemma Invariant.pass (hpackets : ∀ p ∈ packets, IsServerPacket p) (h : c.Invariant packets) {k : ℕ}
    (hk : c.Delivers k) : (c.pass k).Invariant packets ∧ (c.pass k).stream = c.stream.drop k := by
  obtain ⟨before, after, part, rfl, hreading, hr⟩ := h.reading
  obtain ⟨call, hcall, -, hends⟩ := hreading.exists_call hr fun p hp =>
    hpackets p (List.mem_append_right _ hp)
  obtain ⟨⟨hlength, hsize⟩, hpos⟩ := hk
  obtain ⟨hk, -⟩ := hsize call hcall
  have htake : (c.stream.take k).length = k := List.length_take_of_le hlength
  have hpass := @pass_of_placed c h.socket h.thrown hr.toPlaced k call hcall
  -- Bytes are left, so there is a current packet.
  obtain ⟨p, rest, rfl⟩ : ∃ p rest, after = p :: rest := by
    refine List.exists_cons_of_ne_nil ?_
    rintro rfl
    have := congrArg List.length hreading.stream
    rw [List.length_append, List.flatten_nil, List.length_nil] at this
    omega
  have hp := hpackets p (List.mem_append_right _ List.mem_cons_self)
  have hbound : part.length + k ≤ p.length := by
    have hend := hends p rest rfl
    omega
  rw [Reader.receiveCall] at hcall
  cases hbase : c.reader.bBase with
  | false =>
      rw [hbase] at hcall
      obtain rfl := Option.some.inj hcall
      have hheader : part.length + k ≤ packetBaseSize := by
        change (k : ℤ) ≤ packetBaseSize - c.reader.offset at hk
        rw [hr.offset_eq] at hk
        omega
      obtain ⟨r', hnext, hr'⟩ := hr.header_next hbase (htake ▸ hheader)
      have hreading' := hreading.receive hlength (hheader.trans_lt hp.1) r'
      rw [hpass hnext]
      exact ⟨⟨h.socket, h.thrown, before, p :: rest, _, rfl, hreading', hr'⟩, rfl⟩
  | true =>
      rw [hbase, if_pos rfl] at hcall
      obtain ⟨b, hb, -⟩ := Option.map_eq_some_iff.mp hcall
      have hpbase := hr.pbase_eq (hr.header_le hbase) hreading.begins
      have hlengths : c.reader.pbase.length = p.length := by
        rw [hpbase]
        exact hp.2
      rcases hr.payload_next hbase hb (by rwa [htake]) (by rwa [htake, hlengths]) with
        ⟨hlt, r', hnext, hr'⟩ | ⟨heq, r', hnext, hr'⟩
      · have hreading' := hreading.receive hlength (by rwa [← hlengths, ← htake]) r'
        rw [hpass hnext]
        exact ⟨⟨h.socket, h.thrown, before, p :: rest, _, rfl, hreading', hr'⟩, rfl⟩
      · obtain ⟨hpart, hreading'⟩ := hreading.receive_last
          (fun q hq => hpackets q (List.mem_append_right _ (List.mem_cons_of_mem _ hq))) hlength
          (by rwa [← hlengths, ← htake]) r'
        rw [hpass hnext, hpbase, hpart]
        refine ⟨⟨h.socket, h.thrown, before ++ [p], rest, [], ?_, hreading', hr'⟩, rfl⟩
        rw [List.append_assoc]
        rfl

lemma invariant_start (packets : List Bytes) (hpackets : ∀ p ∈ packets, IsServerPacket p) :
    (start packets.flatten).Invariant packets where
  socket := rfl
  thrown := rfl
  reading := by
    refine ⟨[], packets, [], rfl, ⟨rfl, rfl, ?_⟩, Reader.holds_nil (Reader.placed_reset {}) rfl⟩
    rintro p rest rfl
    exact Nat.zero_lt_of_lt (hpackets p List.mem_cons_self).1

/-- A run of passes. -/
lemma Invariant.run (hpackets : ∀ p ∈ packets, IsServerPacket p) {ks : List ℕ}
    (h : c.Invariant packets) (hks : Runs.Along step Delivers c ks) :
    ∃ c', Runs.run step c ks = some c' ∧ c'.Invariant packets ∧
      c'.stream = c.stream.drop ks.sum := by
  induction ks generalizing c with
  | nil => exact ⟨c, rfl, h, rfl⟩
  | cons k ks ih =>
      obtain ⟨hnext, hstream⟩ := h.pass hpackets hks.1
      obtain ⟨c', hrun, hc', hrest⟩ := ih hnext (hks.2 _ rfl)
      refine ⟨c', hrun, hc', ?_⟩
      rw [hrest, hstream, List.drop_drop, List.sum_cons]

/-- **The client reads the packets of the server**, however `Receive` splits their bytes: every
request fits its buffer and ends with the packet, the packets are posted in order, and at the end
all of them are. -/
theorem reads_packets (hpackets : ∀ p ∈ packets, IsServerPacket p) {ks : List ℕ}
    (hks : Runs.Along step Delivers (start packets.flatten) ks) :
    Runs.Always step (ReadsPackets packets) (start packets.flatten) ks ∧
      ∃ c, Runs.run step (start packets.flatten) ks = some c ∧
        (ks.sum = packets.flatten.length → c.posted = packets.map Packet.ofBytes) := by
  have hstart := invariant_start packets hpackets
  refine ⟨?_, ?_⟩
  · have hall : Runs.Always step (Invariant packets) (start packets.flatten) ks :=
      Runs.always_of_along (fun c k c' h hk hstep => by
        obtain rfl := Option.some.inj hstep
        exact (h.pass hpackets hk).1) hstart hks
    exact hall.mono fun c h => h.readsPackets hpackets
  · obtain ⟨c, hrun, h, hstream⟩ := hstart.run hpackets hks
    refine ⟨c, hrun, fun hsum => (h.readsPackets hpackets).posted_eq ?_⟩
    rw [hstream, hsum]
    exact List.drop_length

/-- Two packets, the first in three pieces, the second in two. -/
theorem reads_packets_two :
    ∃ c, Runs.run step (start [7, 0, 202, 0, 0, 1, 2, 6, 0, 58, 1, 0, 9]) [3, 2, 2, 5, 1] = some c ∧
      c.posted = [⟨⟨7, 202, 0⟩, [1, 2]⟩, ⟨⟨6, 314, 0⟩, [9]⟩] := by
  have hpackets : ∀ p ∈ ([[7, 0, 202, 0, 0, 1, 2], [6, 0, 58, 1, 0, 9]] : List Bytes),
      IsServerPacket p := by decide
  have hks : Runs.Along step Delivers (start [7, 0, 202, 0, 0, 1, 2, 6, 0, 58, 1, 0, 9])
      [3, 2, 2, 5, 1] := by decide
  obtain ⟨-, c, hrun, hposted⟩ := reads_packets hpackets hks
  exact ⟨c, hrun, hposted rfl⟩

end Connection

end NetworkClient

end CKGameServer
