import CKGameServer.Library.Decimal
import CKGameServer.Model.RedisConn

/-!
`read.c` of hiredis: the reader of the replies of Redis.

* `RedisReply`, `RedisReadTask`, `RedisReader`: the structures. A task keeps the elements that have
  been read for its object, and the object is put into the one around it when they are complete.
* `seekNewline`, `string2ll`: the functions on text.
* `processLineItem`, `processBulkItem`, `processAggregateItem`, `processItem`: one item.
* `redisReaderFeed`, `redisReaderGetReply`: bytes that arrive, and the call for a reply.

The functions that make objects are those of `hiredis.c`, and memory does not run out. Lengths are
natural numbers: the buffer stays below the `int` range. The value of a floating-point number is
left out, and which texts `strtod` reads is the parameter `strtod`.
-/

namespace CKGameServer

open Memory

/-! ### Replies -/

/-- `REDIS_REPLY_STRING` and so on. -/
inductive ReplyType where
  | string | array | integer | nil | status | error | double | bool | map | set
  deriving DecidableEq, Repr

/-- The types that `processAggregateItem` reads. -/
def ReplyType.isAggregate : ReplyType → Bool
  | .array | .map | .set => true
  | .string | .integer | .nil | .status | .error | .double | .bool => false

/-- `redisReply`; `str` is null where there is no text. -/
structure RedisReply where
  type : ReplyType
  integer : ℤ := 0
  str : Option Bytes := none
  element : List RedisReply := []

/-- The protocol errors of the reader. -/
inductive ReaderError where
  | replyTypeByte (byte : UInt8)
  | badInteger
  | doubleTooLarge
  | badDouble
  | badBulkLength
  | bulkLengthOutOfRange
  | nestedTooDeep
  | badMultiBulkLength
  | multiBulkLengthOutOfRange
  deriving DecidableEq, Repr

/-! ### Text -/

/-- `seekNewline`: where the first `\r\n` stands. -/
def seekNewline : Bytes → Option ℕ
  | c :: d :: s => if c = 13 ∧ d = 10 then some 0 else (seekNewline (d :: s)).map (· + 1)
  | [_] | [] => none

/-- `ULLONG_MAX`. -/
def ullongMax : ℕ := 2 ^ 64 - 1

/-- `LLONG_MAX`. -/
def llongMax : ℕ := 2 ^ 63 - 1

/-- The loop of `string2ll` behind the first digit. -/
def string2llDigits (v : ℕ) : Bytes → Option ℕ
  | [] => some v
  | c :: s =>
    if Decimal.isDigit c then
      if ullongMax / 10 < v then none
      else if ullongMax - (c.toNat - 48) < v * 10 then none
      else string2llDigits (v * 10 + (c.toNat - 48)) s
    else none

/-- `string2ll` behind the sign: the first digit is no zero. -/
def string2llMagnitude : Bytes → Option ℕ
  | [] => none
  | c :: s => if 49 ≤ c.toNat ∧ c.toNat ≤ 57 then string2llDigits (c.toNat - 48) s else none

/-- `string2ll`. -/
def string2ll (s : Bytes) : Option ℤ :=
  if s = [48] then some 0
  else if s.head? = some 45 then
    (string2llMagnitude s.tail).bind fun v : ℕ => if llongMax + 1 < v then none else some (-v)
  else (string2llMagnitude s).bind fun v : ℕ => if llongMax < v then none else some v

/-- `tolower`. -/
def toLower (c : UInt8) : UInt8 := if 65 ≤ c.toNat ∧ c.toNat ≤ 90 then c + 32 else c

/-- What `processLineItem` takes for a floating-point number: `,inf` and `,-inf`, or what `strtod`
reads. -/
def isDouble (strtod : Bytes → Bool) (line : Bytes) : Bool :=
  (cstr line).map toLower = [44, 105, 110, 102] ∨
    (cstr line).map toLower = [44, 45, 105, 110, 102] ∨ cstr line ≠ [] ∧ strtod (cstr line)

/-! ### The reader -/

/-- `redisReadTask`: what is being read, its place in the object around it, and, for an aggregate,
how many elements it has and those that have been read. -/
structure RedisReadTask where
  type : Option ReplyType := none
  elements : ℤ := -1
  idx : ℤ
  obj : List RedisReply := []

/-- `redisReader`. The stack is listed from `rstack[ridx]` down. -/
structure RedisReader where
  err : Option ReaderError := none
  buf : Bytes := []
  pos : ℕ := 0
  rstack : List RedisReadTask := []
  reply : Option RedisReply := none

/-- `moveToNextTask`, where the object of the topmost task is complete: it is put into the object
around it, and so is that one if this was its last element. An object with no other around it is
the reply. -/
def moveToNextTask (obj : RedisReply) (cur : RedisReadTask) :
    List RedisReadTask → Option RedisReply × List RedisReadTask
  | [] => (some obj, [])
  | prv :: rest =>
    let prv := { prv with obj := prv.obj ++ [obj] }
    if cur.idx = prv.elements - 1 then
      moveToNextTask { type := prv.type.getD .array, element := prv.obj } prv rest
    else (none, { idx := cur.idx + 1 } :: prv :: rest)

namespace RedisReader

variable (r : RedisReader)

/-- The bytes at the cursor. -/
def unread : Bytes := r.buf.drop r.pos

/-- `__redisReaderSetError`. -/
def setError (e : ReaderError) : RedisReader := { err := some e }

/-- `readLine`. -/
def readLine : Option (Bytes × RedisReader) :=
  (seekNewline r.unread).map fun len => (r.unread.take len, { r with pos := r.pos + (len + 2) })

/-- The object of the topmost task has been made. -/
def created (obj : RedisReply) (cur : RedisReadTask) (rest : List RedisReadTask) : RedisReader :=
  { r with
    reply := (moveToNextTask obj cur rest).1
    rstack := (moveToNextTask obj cur rest).2 }

variable (strtod : Bytes → Bool)

/-- The object that `processLineItem` makes of a line. -/
def lineObject (type : ReplyType) (line : Bytes) : Except ReaderError RedisReply :=
  match type with
  | .integer =>
    match string2ll line with
    | none => .error .badInteger
    | some v => .ok { type := .integer, integer := v }
  | .double =>
    if 326 ≤ line.length then .error .doubleTooLarge
    else if isDouble strtod line then .ok { type := .double, str := some line }
    else .error .badDouble
  | .nil => .ok { type := .nil }
  | .bool =>
    let bval := line.head? = some 116 ∨ line.head? = some 84
    .ok { type := .bool, integer := if bval then 1 else 0 }
  | type => .ok { type, str := some line }

/-- `processLineItem`. -/
def processLineItem (type : ReplyType) (cur : RedisReadTask) (rest : List RedisReadTask) :
    Bool × RedisReader :=
  match r.readLine with
  | none => (false, r)
  | some (line, r) =>
    match lineObject strtod type line with
    | .error e => (false, setError e)
    | .ok obj => (true, r.created obj cur rest)

/-- `processBulkItem`. Whether `\r\n` follows the string is not checked. -/
def processBulkItem (cur : RedisReadTask) (rest : List RedisReadTask) : Bool × RedisReader :=
  match seekNewline r.unread with
  | none => (false, r)
  | some n =>
    match string2ll (r.unread.take n) with
    | none => (false, setError .badBulkLength)
    | some len =>
      if len < -1 then (false, setError .bulkLengthOutOfRange)
      else if len = -1 then
        (true, { r with pos := r.pos + (n + 2) }.created { type := .nil } cur rest)
      else
        let bytelen := n + 2 + (len.toNat + 2)
        if r.pos + bytelen ≤ r.buf.length then
          (true, { r with pos := r.pos + bytelen }.created
            { type := .string, str := some ((r.unread.drop (n + 2)).take len.toNat) } cur rest)
        else (false, r)

/-- `processAggregateItem`. -/
def processAggregateItem (type : ReplyType) (cur : RedisReadTask) (rest : List RedisReadTask) :
    Bool × RedisReader :=
  if rest.length = 8 then (false, setError .nestedTooDeep)
  else
    match r.readLine with
    | none => (false, r)
    | some (line, r) =>
      match string2ll line with
      | none => (false, setError .badMultiBulkLength)
      | some elements =>
        if elements < -1 then (false, setError .multiBulkLengthOutOfRange)
        else if elements = -1 then (true, r.created { type := .nil } cur rest)
        else
          let elements := if type = .map then elements * 2 else elements
          if 0 < elements then
            (true, { r with rstack := { idx := 0 } :: { cur with elements, obj := [] } :: rest })
          else (true, r.created { type } cur rest)

/-- The type that a byte stands for. -/
def readType (byte : UInt8) : Option ReplyType :=
  match byte.toNat with
  | 45 => some .error
  | 43 => some .status
  | 58 => some .integer
  | 44 => some .double
  | 95 => some .nil
  | 36 => some .string
  | 42 => some .array
  | 37 => some .map
  | 126 => some .set
  | 35 => some .bool
  | _ => none

/-- `processItem`, where the type of the topmost task is known. -/
def processTyped (type : ReplyType) (cur : RedisReadTask) (rest : List RedisReadTask) :
    Bool × RedisReader :=
  match type with
  | .error | .status | .integer | .double | .nil | .bool => r.processLineItem strtod type cur rest
  | .string => r.processBulkItem cur rest
  | .array | .map | .set => r.processAggregateItem type cur rest

/-- `processItem`: whether it answers `REDIS_OK`. -/
def processItem : Bool × RedisReader :=
  match r.rstack with
  | [] => (false, r)
  | cur :: rest =>
    match cur.type with
    | some type => r.processTyped strtod type cur rest
    | none =>
      match r.unread with
      | [] => (false, r)
      | byte :: _ =>
        match readType byte with
        | none => (false, setError (.replyTypeByte byte))
        | some type =>
          let cur := { cur with type := some type }
          { r with pos := r.pos + 1, rstack := cur :: rest }.processTyped strtod type cur rest

/-- The loop of `redisReaderGetReply`. An item takes two bytes at least, so the number of bytes is
enough fuel. -/
def processItems : ℕ → RedisReader → RedisReader
  | 0, r => r
  | fuel + 1, r =>
    if r.rstack = [] then r
    else if (r.processItem strtod).1 then processItems fuel (r.processItem strtod).2
    else (r.processItem strtod).2

end RedisReader

/-- `redisReaderFeed`: whether it answers `REDIS_OK`. -/
def redisReaderFeed (r : RedisReader) (buf : Bytes) : Bool × RedisReader :=
  match r.err with
  | some _ => (false, r)
  | none => (true, { r with buf := r.buf ++ buf })

/-- `redisReaderGetReply`, before its loop: a reply begins with an empty stack. -/
def RedisReader.begin (r : RedisReader) : RedisReader :=
  if r.rstack = [] then { r with rstack := [{ idx := -1 }] } else r

/-- `redisReaderGetReply`, behind its loop: what has been read of the buffer is let go, and a reply
is given out when the stack is empty. -/
def RedisReader.emit (r : RedisReader) : Option (Option RedisReply) × RedisReader :=
  if r.err ≠ none then (none, r)
  else
    let r := if 1024 ≤ r.pos then { r with buf := r.unread, pos := 0 } else r
    if r.rstack = [] then (some r.reply, { r with reply := none }) else (some none, r)

/-- `redisReaderGetReply`: `none` is `REDIS_ERR`, and a reply that is not there is null. -/
def redisReaderGetReply (strtod : Bytes → Bool) (r : RedisReader) :
    Option (Option RedisReply) × RedisReader :=
  if r.err ≠ none then (none, r)
  else if r.buf = [] then (some none, r)
  else (r.begin.processItems strtod r.unread.length).emit

end CKGameServer
