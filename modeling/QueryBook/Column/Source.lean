import QueryBook.Column.Type
import QueryBook.Number.Twister
import QueryBook.Text.Utf8

/-!
# Drawing values from bytes

A byte source is a byte string and a position in it. Values are drawn from the bytes in order: a
number takes a fixed width, a string a length and then so many bytes. Bytes that are not there
count as zeros, and a length never exceeds what is left, so that drawing never fails and the same
bytes always give the same values. Once the bytes have run out every value drawn is the zero of
its type.
-/

namespace QueryBook

/-- Bytes to draw values from. -/
structure ByteSource where
  data : List UInt8
  /-- How many bytes have been taken. -/
  position : Nat := 0
  position_le : position ≤ data.length := by omega

namespace ByteSource

/-- A source with nothing taken. -/
def ofBytes (data : List UInt8) : ByteSource :=
  { data, position := 0, position_le := Nat.zero_le _ }

/-- The bytes that every generated test draws from. -/
def testData : List UInt8 := [1, 2, 3]

/-- So many pseudo-random bytes from a seed. -/
def seeded (seed size : Int) : Except Failure (List UInt8) :=
  if size < 0 then .error (.language "ValueError" "number of bits must be non-negative")
  else .ok (Twister.bytes seed size.toNat)

/-- How many bytes are left. -/
def remaining (s : ByteSource) : Nat := s.data.length - s.position

/-- Where a slice of `size` bytes from the position ends: within the data, and counted from the end
of the data if it would end before its beginning. -/
def sliceEnd (s : ByteSource) (size : Int) : Nat :=
  let stop := s.position + size
  if stop < 0 then (s.data.length + stop).toNat else min stop.toNat s.data.length

/-- The next `size` bytes, or fewer if fewer are left. -/
def chunk (s : ByteSource) (size : Int) : List UInt8 :=
  (s.data.take (s.sliceEnd size)).drop s.position

/-- A slice never reaches beyond the data. -/
theorem position_add_chunk_le (s : ByteSource) (size : Int) :
    s.position + (s.chunk size).length ≤ s.data.length := by
  have h := s.position_le
  simp only [chunk, List.length_drop, List.length_take]
  omega

/-- Takes the next bytes. -/
def take (s : ByteSource) (size : Int) : List UInt8 × ByteSource :=
  (s.chunk size,
    { s with position := s.position + (s.chunk size).length
             position_le := s.position_add_chunk_le size })

/-- Takes exactly so many bytes, zeros standing for those that are not there. -/
def takeFixed (s : ByteSource) (size : Nat) : List UInt8 × ByteSource :=
  let (bytes, rest) := s.take size
  (bytes ++ List.replicate (size - bytes.length) 0, rest)

/-- The number that bytes stand for, the lowest first. -/
def littleEndian : List UInt8 → Nat
  | [] => 0
  | b :: rest => b.toNat + 256 * littleEndian rest

/-- Draws a signed number of 32 bits. -/
def int32 (s : ByteSource) : Int × ByteSource :=
  let (bytes, rest) := s.takeFixed 4
  (Int.bmod (littleEndian bytes) (Nat.pow 2 32), rest)

/-- Draws a double. -/
def float64 (s : ByteSource) : Binary64 × ByteSource :=
  let (bytes, rest) := s.takeFixed 8
  (⟨.ofNat (littleEndian bytes)⟩, rest)

/-- Draws a truth value: the lowest bit of a byte. -/
def boolean (s : ByteSource) : Bool × ByteSource :=
  let (bytes, rest) := s.takeFixed 1
  (littleEndian bytes % 2 == 1, rest)

/-- Draws a length: a byte, reduced to at most the number of bytes then left. -/
def length (s : ByteSource) : Nat × ByteSource :=
  if s.remaining = 0 then (0, s)
  else
    let (bytes, rest) := s.take 1
    (littleEndian bytes % (rest.remaining + 1), rest)

/-- Draws a byte string. -/
def byteString (s : ByteSource) : List UInt8 × ByteSource :=
  let (n, rest) := s.length
  rest.take n

/-- Draws a text; bytes that are no text are dropped. -/
def text (s : ByteSource) : String × ByteSource :=
  let (bytes, rest) := s.byteString
  (.ofList (Text.Utf8.decodeLenient bytes), rest)

/-- Draws a value of a column type. An optional value is null if a truth value drawn first is
false. -/
def draw (s : ByteSource) : ColumnType → Value × ByteSource
  | .int => let (n, rest) := s.int32; (.int n, rest)
  | .float => let (x, rest) := s.float64; (.float x, rest)
  | .bool => let (b, rest) := s.boolean; (.bool b, rest)
  | .text => let (t, rest) := s.text; (.text t, rest)
  | .bytes => let (b, rest) := s.byteString; (.bytes b, rest)
  | .optional inner =>
    let (present, rest) := s.boolean
    if present then rest.draw inner else (.null, rest)

/-- Draws a value of each of several types. -/
def drawAll (s : ByteSource) : List ColumnType → List Value × ByteSource
  | [] => ([], s)
  | t :: types =>
    let (v, rest) := s.draw t
    let (vs, last) := rest.drawAll types
    (v :: vs, last)

/-- A call on a source. -/
inductive Operation where
  | take (size : Int)
  | int32 | float64 | boolean | length | byteString | text
  | draw (type : ColumnType)
deriving DecidableEq, Repr

/-- Makes a call and returns what it gives as a value. -/
def step (s : ByteSource) : Operation → Value × ByteSource
  | .take size => let (bytes, rest) := s.take size; (.bytes bytes, rest)
  | .int32 => let (n, rest) := s.int32; (.int n, rest)
  | .float64 => let (x, rest) := s.float64; (.float x, rest)
  | .boolean => let (b, rest) := s.boolean; (.bool b, rest)
  | .length => let (n, rest) := s.length; (.int n, rest)
  | .byteString => let (bytes, rest) := s.byteString; (.bytes bytes, rest)
  | .text => let (t, rest) := s.text; (.text t, rest)
  | .draw type => s.draw type

/-- Makes several calls, one after the other. -/
def run (s : ByteSource) : List Operation → List Value × ByteSource
  | [] => ([], s)
  | op :: ops =>
    let (v, rest) := s.step op
    let (vs, last) := rest.run ops
    (v :: vs, last)

end ByteSource

end QueryBook
