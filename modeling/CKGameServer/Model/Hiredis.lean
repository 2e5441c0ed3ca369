import CKGameServer.Library.Resp
import CKGameServer.Model.RedisReader

/-!
`hiredis.c` and `net.c` of hiredis, as far as a blocking context uses them.

* `FormatArg`, `formatArg`, `formatLoop`, `redisvFormatCommand`: a command from a format;
  `intTotlen`, `intPos`: its counters, as the `int`s they are.
* `RedisContext`, `SendResult`, `RecvResult`: the context, and what the calls of the socket answer.
* `redisBufferWrite`, `redisBufferRead`, `redisGetReply`, `redisvCommand`: a command and its reply.

What `vsnprintf` writes for a number is the parameter `vsnprintf`. A function that calls the socket
takes what these calls answer, in their order; it is `none` where they are not as many as it makes.
-/

namespace CKGameServer

open Memory

/-! ### Formats -/

/-- What `va_arg` takes for a number. -/
inductive NumberType where
  | int | long | longLong | double
  deriving DecidableEq, Repr

/-- An argument of a format: a `char *`, a `char *` with its size, or the bits of a number. -/
inductive FormatArg where
  | string (s : Bytes)
  | block (s : Bytes)
  | number (type : NumberType) (bits : UInt64)

/-- How `redisvFormatCommand` ends without a command: the format is invalid (`-2`), the arguments
are others than the format says, or `assert(pos == totlen)` fails. -/
inductive FormatError where
  | format | undefined | assertion
  deriving DecidableEq, Repr

/-- The loop of `countDigits`. -/
def countDigitsLoop : ℕ → ℕ → ℕ
  | 0, _ => 1
  | fuel + 1, v =>
    if v < 10 then 1
    else if v < 100 then 2
    else if v < 1000 then 3
    else if v < 10000 then 4
    else countDigitsLoop fuel (v / 10000) + 4

/-- `countDigits`. A number is more than its digits, so it is enough fuel. -/
def countDigits (v : ℕ) : ℕ := countDigitsLoop v v

/-- `bulklen`. -/
def bulklen (len : ℕ) : ℕ := 1 + countDigits len + 2 + len + 2

/-- The conversions `diouxX`. -/
def isIntfmt (c : UInt8) : Bool := [100, 105, 111, 117, 120, 88].contains c

/-- The conversions `eEfFgGaA`. -/
def isDoublefmt (c : UInt8) : Bool := [101, 69, 102, 70, 103, 71, 97, 65].contains c

/-- The flags `#0-+` and the blank. -/
def isFlag (c : UInt8) : Bool := [35, 48, 45, 43, 32].contains c

/-- The precision. -/
def skipPrecision : Bytes → Bytes
  | [] => []
  | c :: p => if c = 46 then p.dropWhile Decimal.isDigit else c :: p

/-- The flags, the field width and the precision. -/
def skipModifiers (p : Bytes) : Bytes :=
  skipPrecision ((p.dropWhile isFlag).dropWhile Decimal.isDigit)

/-- The size and the conversion, and their length. At the end of the format `strchr` finds the
zero, and the format is read past its end. -/
def conversion : Bytes → Except FormatError (NumberType × ℕ)
  | [] => .error .undefined
  | c :: p =>
    if isIntfmt c then .ok (.int, 1)
    else if isDoublefmt c then .ok (.double, 1)
    else if c = 104 then
      if p.head? = some 104 then if p.tail.head?.any isIntfmt then .ok (.int, 3) else .error .format
      else if p.head?.any isIntfmt then .ok (.int, 2)
      else .error .format
    else if c = 108 then
      if p.head? = some 108 then
        if p.tail.head?.any isIntfmt then .ok (.longLong, 3) else .error .format
      else if p.head?.any isIntfmt then .ok (.long, 2)
      else .error .format
    else .error .format

/-- The state of the loop of `redisvFormatCommand`. The counter `totlen` is an `int` in the source,
see `intTotlen`. -/
structure FormatState where
  curarg : Bytes := []
  touched : Bool := false
  curargv : List Bytes := []
  totlen : ℕ := 0

namespace FormatState

variable (st : FormatState)

/-- Text for the current argument. -/
def put (s : Bytes) : FormatState := { st with curarg := st.curarg ++ s, touched := true }

/-- The end of the current argument. -/
def close : FormatState :=
  if st.touched then
    { curargv := st.curargv ++ [st.curarg], totlen := st.totlen + bulklen st.curarg.length }
  else st

end FormatState

variable (vsnprintf : Bytes → UInt64 → Bytes)

/-- The format behind a `%`: what is put into the current argument, how much of the format it
takes, and the arguments that are left. A number whose format is too long for `_format` is skipped,
and the format is read on behind its first byte. -/
def formatArg (format : Bytes) (ap : List FormatArg) :
    Except FormatError (Bytes × ℕ × List FormatArg) :=
  if format.head? = some 115 then
    match ap with
    | .string s :: ap => .ok (cstr s, 1, ap)
    | _ => .error .undefined
  else if format.head? = some 98 then
    match ap with
    | .block s :: ap => .ok (s, 1, ap)
    | _ => .error .undefined
  else if format.head? = some 37 then .ok ([37], 1, ap)
  else
    match conversion (skipModifiers format) with
    | .error e => .error e
    | .ok (type, n) =>
      match ap with
      | .number type' bits :: ap =>
        if type' = type then
          let l := format.length - (skipModifiers format).length + n
          if l + 1 < 14 then .ok (vsnprintf (37 :: format.take l) bits, l, ap)
          else .ok ([], 1, ap)
        else .error .undefined
      | _ => .error .undefined

/-- The loop of `redisvFormatCommand`, with the number of bytes of the format that have been read
already. -/
def formatLoop : ℕ → Bytes → List FormatArg → FormatState → Except FormatError FormatState
  | _, [], _, st => .ok st
  | k + 1, _ :: format, ap, st => formatLoop k format ap st
  | 0, c :: format, ap, st =>
    if c ≠ 37 ∨ format = [] then
      if c = 32 then formatLoop 0 format ap st.close else formatLoop 0 format ap (st.put [c])
    else
      match formatArg vsnprintf format ap with
      | .error e => .error e
      | .ok (s, k, ap) => formatLoop k format ap (st.put s)

/-- An argument at protocol level. -/
def bulkString (s : Bytes) : Bytes :=
  36 :: Decimal.toDecimalNat s.length ++ Resp.newline ++ s ++ Resp.newline

/-- `redisvFormatCommand`. The counters `totlen` and `pos` are `int`s in the source and natural
numbers here; for commands of less than `2 ^ 31` bytes they are the same. -/
def redisvFormatCommand (format : Bytes) (ap : List FormatArg) : Except FormatError Bytes :=
  match formatLoop vsnprintf 0 format ap {} with
  | .error e => .error e
  | .ok st =>
    let argv := st.close.curargv
    let totlen := st.close.totlen + (1 + countDigits argv.length + 2)
    let cmd := 42 :: Decimal.toDecimalNat argv.length ++ Resp.newline ++ argv.flatMap bulkString
    if cmd.length = totlen then .ok cmd else .error .assertion

/-- `totlen` as an `int`, when the arguments have been counted. -/
def intTotlen (argv : List Bytes) : Int32 :=
  argv.foldl (fun totlen s => totlen + Int32.ofNat (bulklen s.length)) 0

/-- `pos` as an `int`, when the arguments have been written behind their number. -/
def intPos (argc : ℕ) (argv : List Bytes) : Int32 :=
  argv.foldl
    (fun pos s =>
      pos + Int32.ofNat (36 :: Decimal.toDecimalNat s.length ++ Resp.newline).length +
        Int32.ofNat s.length + 1 + 1)
    (Int32.ofNat (42 :: Decimal.toDecimalNat argc ++ Resp.newline).length)

/-! ### The socket -/

/-- What `send` answers. -/
inductive SendResult where
  | sent (n : ℕ)
  | interrupted
  | failed

/-- What `recv` answers. -/
inductive RecvResult where
  | received (buf : Bytes)
  | interrupted
  | timedOut
  | closed
  | failed

/-- `REDIS_ERR_IO` and so on. -/
inductive ContextError where
  | io | eof | timeout | protocol (e : ReaderError) | other
  deriving DecidableEq, Repr

/-- `redisContext`. -/
structure RedisContext where
  err : Option ContextError := none
  obuf : Bytes := []
  reader : RedisReader := {}

namespace RedisContext

variable (c : RedisContext)

/-- `__redisSetError`. -/
def setError (e : ContextError) : RedisContext := { c with err := some e }

/-- `redisNetWrite`; `none` is `-1`. An interrupted call is no error of the context. -/
def redisNetWrite : SendResult → Option ℕ × RedisContext
  | .sent n => (some n, c)
  | .interrupted => (none, c)
  | .failed => (none, c.setError .io)

/-- `redisNetRead`; `none` is `-1`. -/
def redisNetRead : RecvResult → Option Bytes × RedisContext
  | .received buf => (some buf, c)
  | .interrupted => (some [], c)
  | .timedOut => (none, c.setError .timeout)
  | .closed => (none, c.setError .eof)
  | .failed => (none, c.setError .io)

/-- `redisBufferWrite`, where there is something to write: whether it is done, and `none` for
`REDIS_ERR`. -/
def redisBufferWrite (r : SendResult) : Option Bool × RedisContext :=
  match c.redisNetWrite r with
  | (none, c) => (none, c)
  | (some n, c) => (some (c.obuf.drop n).isEmpty, { c with obuf := c.obuf.drop n })

/-- `redisBufferRead`: whether it answers `REDIS_OK`. -/
def redisBufferRead (r : RecvResult) : Bool × RedisContext :=
  if c.err ≠ none then (false, c)
  else
    match c.redisNetRead r with
    | (none, c) => (false, c)
    | (some buf, c) =>
      if buf = [] then (true, c)
      else
        match redisReaderFeed c.reader buf with
        | (true, reader) => (true, { c with reader })
        | (false, reader) => (false, { c with reader, err := reader.err.map .protocol })

variable (strtod : Bytes → Bool)

/-- `redisGetReplyFromReader`. -/
def redisGetReplyFromReader : Option (Option RedisReply) × RedisContext :=
  match redisReaderGetReply strtod c.reader with
  | (some reply, reader) => (some reply, { c with reader })
  | (none, reader) => (none, { c with reader, err := reader.err.map .protocol })

end RedisContext

/-- The loop of `redisGetReply` that writes: whether no call fails. -/
def writeUntilDone : List SendResult → RedisContext → Option (Bool × RedisContext)
  | [], c => if c.err ≠ none then some (false, c) else if c.obuf = [] then some (true, c) else none
  | r :: sends, c =>
    if c.err ≠ none ∨ c.obuf = [] then none
    else
      match c.redisBufferWrite r with
      | (none, c) => if sends = [] then some (false, c) else none
      | (some true, c) => if sends = [] then some (true, c) else none
      | (some false, c) => writeUntilDone sends c

/-- The loop of `redisGetReply` that reads; a null reply is `REDIS_ERR`. -/
def readUntilReply (strtod : Bytes → Bool) :
    List RecvResult → RedisContext → Option (Option RedisReply × RedisContext)
  | [], _ => none
  | r :: recvs, c =>
    match c.redisBufferRead r with
    | (false, c) => if recvs = [] then some (none, c) else none
    | (true, c) =>
      match c.redisGetReplyFromReader strtod with
      | (none, c) => if recvs = [] then some (none, c) else none
      | (some none, c) => readUntilReply strtod recvs c
      | (some (some reply), c) => if recvs = [] then some (some reply, c) else none

/-- `redisGetReply`; a null reply is `REDIS_ERR`. -/
def redisGetReply (strtod : Bytes → Bool) (sends : List SendResult) (recvs : List RecvResult)
    (c : RedisContext) : Option (Option RedisReply × RedisContext) :=
  match c.redisGetReplyFromReader strtod with
  | (none, c) => if sends = [] ∧ recvs = [] then some (none, c) else none
  | (some (some reply), c) => if sends = [] ∧ recvs = [] then some (some reply, c) else none
  | (some none, c) =>
    match writeUntilDone sends c with
    | none => none
    | some (false, c) => if recvs = [] then some (none, c) else none
    | some (true, c) => readUntilReply strtod recvs c

/-- `redisvAppendCommand`: whether it answers `REDIS_OK`. -/
def redisvAppendCommand (format : Bytes) (ap : List FormatArg) (c : RedisContext) :
    Option (Bool × RedisContext) :=
  match redisvFormatCommand vsnprintf format ap with
  | .ok cmd => some (true, { c with obuf := c.obuf ++ cmd })
  | .error .format => some (false, c.setError .other)
  | .error .undefined | .error .assertion => none

/-- `redisvCommand`: the reply, or null. -/
def redisvCommand (strtod : Bytes → Bool) (format : Bytes) (ap : List FormatArg)
    (sends : List SendResult) (recvs : List RecvResult) (c : RedisContext) :
    Option (Option RedisReply × RedisContext) :=
  match redisvAppendCommand vsnprintf format ap c with
  | none => none
  | some (false, c) => if sends = [] ∧ recvs = [] then some (none, c) else none
  | some (true, c) => redisGetReply strtod sends recvs c

end CKGameServer
