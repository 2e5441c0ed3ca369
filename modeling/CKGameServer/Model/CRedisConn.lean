import CKGameServer.Model.Hiredis

/-!
`CRedisConn.h` and `CRedisConnEx.h`: the calls the server makes, each with its command, its reply
and what it makes of the reply.

* `CRedisConn`: the context, whether there is a connection, and the text of the last error.
* `getError`: `_getError`.
* `CRedisConn.get`, `CRedisConn.hget`, `CRedisConn.hset`, `CRedisConn.hgetall`,
  `CRedisConn.publish`.

A call is `none` where it does not return: its calls of the socket are not those that are given, or
it reads through a null pointer.
-/

namespace CKGameServer

open Memory

/-- `_errStr`: a text of `_errDes`, or that of a reply. -/
inductive ErrStr where
  | noError | null | noConnect | noKey | noKeyOrField
  | reply (s : Bytes)
  deriving DecidableEq, Repr

/-- `CRedisConn`. -/
structure CRedisConn where
  redCtx : Option RedisContext
  connected : Bool
  errStr : ErrStr := .noError

/-- `_getError` of a reply: whether there is an error, and its text. The text of an error reply is
never null. -/
def getError : Option RedisReply → Bool × ErrStr
  | none => (false, .null)
  | some reply =>
    if reply.type = .error then (true, .reply (cstr (reply.str.getD []))) else (false, .noError)

/-- A string that is made from `reply->str`. -/
def RedisReply.string (reply : RedisReply) : Option Bytes := reply.str.map cstr

/-- `_getArryToMap`: the strings of the elements, in pairs. -/
def arryToMap : List RedisReply → ValueMap → Option ValueMap
  | [], m => some m
  | [_], _ => none
  | k :: v :: elements, m =>
    match k.string, v.string with
    | some k, some v => arryToMap elements (m.insert k v)
    | _, _ => none

/-- `"GET %s"`. -/
def getFormat : Bytes := [71, 69, 84, 32, 37, 115]

/-- `"HGET %s %s"`. -/
def hgetFormat : Bytes := [72, 71, 69, 84, 32, 37, 115, 32, 37, 115]

/-- `"HSET %s %s %s"`. -/
def hsetFormat : Bytes := [72, 83, 69, 84, 32, 37, 115, 32, 37, 115, 32, 37, 115]

/-- `"HGETALL %s"`. -/
def hgetallFormat : Bytes := [72, 71, 69, 84, 65, 76, 76, 32, 37, 115]

/-- `"PUBLISH %s %s"`. -/
def publishFormat : Bytes :=
  [80, 85, 66, 76, 73, 83, 72, 32, 37, 115, 32, 37, 115]

namespace CRedisConn

variable (strtod : Bytes → Bool) (vsnprintf : Bytes → UInt64 → Bytes)

/-- A call with strings for its format: what it answers without a connection, and what it makes of
the reply, with the text of the error. -/
def call {α : Type} (noConnection : α) (format : Bytes) (ap : List Bytes)
    (answer : Option RedisReply → Option (α × ErrStr)) (sends : List SendResult)
    (recvs : List RecvResult) (conn : CRedisConn) : Option (α × CRedisConn) :=
  match conn.connected, conn.redCtx with
  | true, some ctx =>
    (redisvCommand vsnprintf strtod format (ap.map .string) sends recvs ctx).bind fun p =>
      (answer p.1).map fun q => (q.1, { conn with redCtx := some p.2, errStr := q.2 })
  | _, _ =>
    if sends = [] ∧ recvs = [] then some (noConnection, { conn with errStr := .noConnect })
    else none

/-- What `get` and `hget` make of a reply; `none` is the answer `false`. -/
def stringAnswer (reply : Option RedisReply) : Option (Option Bytes × ErrStr) :=
  match getError reply with
  | (true, e) => some (none, e)
  | (false, e) =>
    match reply with
    | none => none
    | some reply =>
      if reply.type = .nil then some (none, .noKeyOrField)
      else reply.string.map fun s => (some s, e)

/-- What `hset` makes of a reply: `retval`. -/
def integerAnswer (reply : Option RedisReply) : Option (Option UInt32 × ErrStr) :=
  match getError reply with
  | (true, e) => some (none, e)
  | (false, e) => reply.map fun reply => (some (UInt32.ofInt reply.integer), e)

/-- What `hgetall` makes of a reply. -/
def mapAnswer (reply : Option RedisReply) : Option (Option ValueMap × ErrStr) :=
  match getError reply with
  | (true, e) => some (none, e)
  | (false, e) =>
    match reply with
    | none => none
    | some reply =>
      if reply.type = .array ∧ reply.element = [] then some (none, .noKey)
      else (arryToMap reply.element []).map fun m => (some m, e)

/-- `get`. -/
def get (key : Bytes) := call strtod vsnprintf none getFormat [key] stringAnswer

/-- `hget`. -/
def hget (key filed : Bytes) :=
  call strtod vsnprintf none hgetFormat [key, filed] stringAnswer

/-- `hset`. -/
def hset (key filed value : Bytes) :=
  call strtod vsnprintf none hsetFormat [key, filed, value] integerAnswer

/-- `hgetall`. -/
def hgetall (key : Bytes) := call strtod vsnprintf none hgetallFormat [key] mapAnswer

/-- `publish`. It asks for no connection, and takes any reply. -/
def publish (channel message : Bytes) (sends : List SendResult) (recvs : List RecvResult)
    (conn : CRedisConn) : Option CRedisConn :=
  conn.redCtx.bind fun ctx =>
    (redisvCommand vsnprintf strtod publishFormat [.string channel, .string message] sends recvs
      ctx).map fun p => { conn with redCtx := some p.2 }

end CRedisConn

end CKGameServer
