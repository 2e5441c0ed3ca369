import CKGameServer.Model.NetworkClient

/-!
`NetworkClient.ReadTcpDataThread` of the client and the functions of `UnsafeCode.cs` it calls.

* `PacketBase`, `Packet`: the header, and a packet as it is posted.
* `memcpy`, `subArray`: `UnsafeCode.Memcpy` and `UnsafeCode.SubArray`.
* `Reader`: the variables of the thread; `Reader.receiveCall`: the arguments of its next `Receive`.
* `Reader.iterate`: one iteration of the loop, with what `Receive` returns.
* `Connection`: the thread and the bytes that have been sent to it; `Connection.pass`: the next
  iteration, in which `Receive` returns a number of them.
-/

namespace CKGameServer

open Memory

namespace NetworkClient

/-! ### Packets -/

/-- `PacketBase`. -/
structure PacketBase where
  length : ℕ
  packetId : ℕ
  type : UInt8
  deriving DecidableEq, Repr

/-- `UnsafeCode.ByteArrayToStructure`, for a `PacketBase`. -/
def PacketBase.ofView (data : View) : PacketBase where
  length := data.natLE 0 2
  packetId := data.natLE 2 2
  type := data 4

/-- `Packet`. -/
structure Packet where
  pbase : PacketBase
  data : Bytes
  deriving DecidableEq, Repr

/-! ### Arrays -/

/-- A `byte[]`. -/
structure ByteBuffer where
  length : ℕ
  bytes : View

/-- The loop of `UnsafeCode.Memcpy`, with the pointers into their arrays. -/
def memcpy (dest : View) (d : ℕ) (src : View) (s : ℕ) : ℕ → View
  | 0 => dest
  | len + 1 => memcpy (Function.update dest d (src s)) (d + 1) src (s + 1) len

/-- `UnsafeCode.SubArray`. -/
def subArray (array : View) (offset length : ℕ) : Bytes :=
  (memcpy (fun _ => 0) 0 array offset length).read 0 length

/-! ### The loop -/

/-- The variables of `ReadTcpDataThread`. -/
structure Reader where
  offset : ℕ := 0
  packetBaseBuffer : View := fun _ => 0
  clientBuffer : Option ByteBuffer := none
  bBase : Bool := false

/-- The arguments of a call of `Receive`: the length of the buffer, the offset and the size. -/
structure ReceiveCall where
  bufferLength : ℕ
  offset : ℕ
  size : ℤ

/-- The bytes asked for have a place in the buffer. Otherwise `Receive` throws. -/
def ReceiveCall.Fits (call : ReceiveCall) : Prop :=
  0 ≤ call.size ∧ call.offset + call.size ≤ call.bufferLength

instance (call : ReceiveCall) : Decidable call.Fits := inferInstanceAs (Decidable (_ ∧ _))

/-- How an iteration ends. -/
inductive Iteration where
  /-- At its end or with `continue`, after it has posted a packet, if any. -/
  | next (reader : Reader) (posted : Option Packet)
  | leave
  | uncaught

namespace Reader

variable (r : Reader)

/-- `packet.pbase`. -/
def pbase : PacketBase := .ofView r.packetBaseBuffer

/-- `clientBuffer` of the second phase. In its first iteration it is allocated and the header is
copied, and `BlockCopy` throws where the buffer is shorter. -/
def allocated : Option ByteBuffer :=
  match r.clientBuffer with
  | some clientBuffer => some clientBuffer
  | none =>
    if packetBaseSize ≤ r.pbase.length then
      some { length := r.pbase.length
             bytes := View.write (fun _ => 0) 0 r.packetBaseBuffer packetBaseSize }
    else none

/-- The call of `Receive` in the next iteration. -/
def receiveCall : Option ReceiveCall :=
  if r.bBase then
    r.allocated.map fun clientBuffer =>
      ⟨clientBuffer.length, r.offset, r.pbase.length - r.offset⟩
  else some ⟨packetBaseSize, r.offset, packetBaseSize - r.offset⟩

/-- The first phase, with what `Receive` returns, or throws. -/
def iterateHeader : Option Bytes → Iteration
  | none => .leave
  | some bytes =>
    let offset := r.offset + bytes.length
    .next
      { r with
        packetBaseBuffer := r.packetBaseBuffer.write r.offset (View.ofBytes bytes) bytes.length
        offset := offset
        bBase := offset = packetBaseSize }
      none

/-- The second phase, with its buffer. -/
def iteratePayload (clientBuffer : ByteBuffer) : Option Bytes → Iteration
  | none => .leave
  | some bytes =>
    let clientBuffer := { clientBuffer with
      bytes := clientBuffer.bytes.write r.offset (View.ofBytes bytes) bytes.length }
    if 0 < bytes.length then
      let offset := r.offset + bytes.length
      if offset < r.pbase.length then
        .next { r with clientBuffer := some clientBuffer, offset := offset } none
      else
        .next { r with clientBuffer := none, offset := 0, bBase := false }
          (some ⟨r.pbase, subArray clientBuffer.bytes packetBaseSize
            (r.pbase.length - packetBaseSize)⟩)
    else .next { r with clientBuffer := some clientBuffer } none

/-- One iteration. -/
def iterate (received : Option Bytes) : Iteration :=
  if r.bBase then
    match r.allocated with
    | none => .uncaught
    | some clientBuffer => r.iteratePayload clientBuffer received
  else r.iterateHeader received

end Reader

/-- The thread, the bytes that are sent to it and not yet received, and the packets it has posted.
-/
structure Connection where
  reader : Reader := {}
  stream : Bytes
  posted : List Packet := []
  /-- `socket` is not null. -/
  socket : Bool := true
  /-- `OnDisconnect` has been posted. -/
  onDisconnect : Bool := false
  /-- The thread has ended with an exception. -/
  thrown : Bool := false

namespace Connection

variable (c : Connection)

/-- Behind the loop: `Close`, and `OnDisconnect`. -/
def leave : Connection := { c with socket := false, onDisconnect := true }

/-- What `Receive` does where the network delivers `k` bytes. -/
def receive (k : ℕ) : Option Bytes :=
  c.reader.receiveCall.bind fun call => if call.Fits then some (c.stream.take k) else none

/-- The next iteration, in which the network delivers `k` bytes. -/
def pass (k : ℕ) : Connection :=
  if c.socket ∧ ¬c.thrown then
    match c.reader.iterate (c.receive k) with
    | .next reader posted =>
      { c with
        reader := reader
        stream := c.stream.drop k
        posted := c.posted ++ posted.toList }
    | .leave => c.leave
    | .uncaught => { c with thrown := true }
  else c

/-- A run takes every pass. -/
def step (k : ℕ) : Option Connection := some (c.pass k)

/-- `Receive` can return `k` bytes: no more than it is asked for, and none only where it is asked
for none or there are none. -/
def CanReceive (k : ℕ) : Prop :=
  k ≤ c.stream.length ∧ ∀ call ∈ c.reader.receiveCall,
    k ≤ call.size ∧ (0 < call.size → c.stream ≠ [] → 0 < k)

instance (k : ℕ) : Decidable (c.CanReceive k) := inferInstanceAs (Decidable (_ ∧ _))

end Connection

end NetworkClient

end CKGameServer
