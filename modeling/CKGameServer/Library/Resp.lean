import CKGameServer.Library.Decimal

/-!
The values of the Redis protocol and their bytes.

* `Value`: status and error lines, numbers, bulk strings, and aggregates of values. There are three
  ways to write nil.
* `Value.bytes`: a type byte and a line; a bulk string and the elements of an aggregate follow the
  line that says how many there are.
* `Value.depth`: how deep aggregates stand in each other.
* `command`: an array of bulk strings.
* `Value.Valid`: a value that can be written, so that its lines end where they should and its
  numbers and lengths are in range.
-/

namespace Resp

open Memory

/-- `\r\n`. -/
def newline : Bytes := [13, 10]

/-- A line without its end holds no end. -/
def IsLine (s : Bytes) : Prop := ¬newline <:+: s

instance (s : Bytes) : Decidable (IsLine s) := inferInstanceAs (Decidable (¬_))

/-- The kinds of aggregates. -/
inductive Aggregate where
  | array | map | set
  deriving DecidableEq, Repr

/-- The type byte of an aggregate. -/
def Aggregate.byte : Aggregate → UInt8
  | .array => 42
  | .map => 37
  | .set => 126

/-- How many values one element of the aggregate is. -/
def Aggregate.width : Aggregate → ℕ
  | .map => 2
  | .array | .set => 1

/-- What a server sends. The elements of a map are its keys and values in turn. -/
inductive Value where
  | error (s : Bytes)
  | status (s : Bytes)
  | integer (v : ℤ)
  | double (s : Bytes)
  | null
  | bool (b : Bool)
  | bulk (s : Bytes)
  | nilBulk
  | aggregate (kind : Aggregate) (elements : List Value)
  | nilAggregate (kind : Aggregate)

/-- A type byte, and a line with its end. -/
def typed (byte : UInt8) (s : Bytes) : Bytes := byte :: s ++ newline

mutual

/-- The bytes of a value. -/
def Value.bytes : Value → Bytes
  | .error s => typed 45 s
  | .status s => typed 43 s
  | .integer v => typed 58 (Decimal.toDecimal v)
  | .double s => typed 44 s
  | .null => typed 95 []
  | .bool b => typed 35 [if b then 116 else 102]
  | .bulk s => typed 36 (Decimal.toDecimal s.length) ++ (s ++ newline)
  | .nilBulk => typed 36 (Decimal.toDecimal (-1))
  | .aggregate kind elements =>
    typed kind.byte (Decimal.toDecimal (elements.length / kind.width : ℕ)) ++ bytesOf elements
  | .nilAggregate kind => typed kind.byte (Decimal.toDecimal (-1))

/-- The bytes of values one after the other. -/
def bytesOf : List Value → Bytes
  | [] => []
  | w :: ws => w.bytes ++ bytesOf ws

end

mutual

/-- The number of aggregates around each other. -/
def Value.depth : Value → ℕ
  | .aggregate _ elements => depthOf elements + 1
  | .nilAggregate _ => 1
  | .error _ | .status _ | .integer _ | .double _ | .null | .bool _ | .bulk _ | .nilBulk => 0

/-- The same for the deepest of some values. -/
def depthOf : List Value → ℕ
  | [] => 0
  | w :: ws => max w.depth (depthOf ws)

end

/-- What a client sends: a command and its arguments. -/
def command (argv : List Bytes) : Value := .aggregate .array (argv.map .bulk)

variable (isDouble : Bytes → Bool)

mutual

/-- A value that can be written. Which lines are floating-point numbers is `isDouble`. -/
def Value.Valid : Value → Prop
  | .error s | .status s => IsLine s
  | .integer v => -2 ^ 63 ≤ v ∧ v < 2 ^ 63
  | .double s => IsLine s ∧ isDouble s
  | .null | .bool _ | .nilBulk | .nilAggregate _ => True
  | .bulk s => s.length < 2 ^ 31
  | .aggregate kind elements =>
    elements.length < 2 ^ 31 ∧ kind.width ∣ elements.length ∧ ValidAll elements

/-- All of some values can be written. -/
def ValidAll : List Value → Prop
  | [] => True
  | w :: ws => w.Valid ∧ ValidAll ws

end

end Resp
