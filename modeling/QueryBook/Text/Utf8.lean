import QueryBook.Text.Literal

/-!
# Reading UTF-8

A byte sequence is cut into segments: the well-formed encodings of characters, and malformed runs
between them. A run is the longest start of some encoding that the bytes contain, so that reading
resumes at the first byte that did not fit; a run cut off by the end of the bytes is a defect of
its own. Strict reading reports the first malformed run, lenient reading drops them all.
-/

namespace QueryBook.Text.Utf8

/-- Why a run of bytes is not the encoding of a character. -/
inductive Defect where
  /-- No encoding starts with this byte. -/
  | invalidStart
  /-- The run is followed by a byte that does not continue it. -/
  | invalidContinuation
  /-- The bytes end before the encoding does. -/
  | unexpectedEnd
deriving DecidableEq, Repr

/-- What stands at the head of a byte sequence: a character or a malformed run, and how many bytes
after the first belong to it. -/
inductive Head where
  | char (c : Char) (more : Nat)
  | malformed (why : Defect) (more : Nat)
deriving DecidableEq, Repr

/-- How many bytes after the first belong to the head. -/
def Head.more : Head → Nat
  | .char _ more => more
  | .malformed _ more => more

/-- A continuation byte, `10xxxxxx`. -/
def isContinuation (b : UInt8) : Bool := 0x80 ≤ b.toNat && b.toNat < 0xC0

/-- Whether `b` may follow the lead byte `lead` of an encoding of three or four bytes. The bounds
beside the continuation bits rule out overlong forms, surrogates and code points past the last. -/
def isSecond (lead b : UInt8) : Bool :=
  isContinuation b &&
    (if lead = 0xE0 then 0xA0 ≤ b.toNat
     else if lead = 0xED then b.toNat < 0xA0
     else if lead = 0xF0 then 0x90 ≤ b.toNat
     else if lead = 0xF4 then b.toNat < 0x90
     else true)

/-- The six payload bits of a continuation byte. -/
def payload (b : UInt8) : Nat := b.toNat % 0x40

/-- The head of the byte sequence `b :: rest`. -/
def head (b : UInt8) (rest : List UInt8) : Head :=
  let n := b.toNat
  if n < 0x80 then .char (Char.ofNat n) 0
  else if n < 0xC2 then .malformed .invalidStart 0
  else if n < 0xE0 then
    match rest with
    | [] => .malformed .unexpectedEnd 0
    | b₁ :: _ =>
      if isContinuation b₁ then .char (Char.ofNat (n % 0x20 * 0x40 + payload b₁)) 1
      else .malformed .invalidContinuation 0
  else if n < 0xF0 then
    match rest with
    | [] => .malformed .unexpectedEnd 0
    | b₁ :: rest₁ =>
      if !isSecond b b₁ then .malformed .invalidContinuation 0
      else match rest₁ with
        | [] => .malformed .unexpectedEnd 1
        | b₂ :: _ =>
          if isContinuation b₂ then
            .char (Char.ofNat ((n % 0x10 * 0x40 + payload b₁) * 0x40 + payload b₂)) 2
          else .malformed .invalidContinuation 1
  else if n < 0xF5 then
    match rest with
    | [] => .malformed .unexpectedEnd 0
    | b₁ :: rest₁ =>
      if !isSecond b b₁ then .malformed .invalidContinuation 0
      else match rest₁ with
        | [] => .malformed .unexpectedEnd 1
        | b₂ :: rest₂ =>
          if !isContinuation b₂ then .malformed .invalidContinuation 1
          else match rest₂ with
            | [] => .malformed .unexpectedEnd 2
            | b₃ :: _ =>
              if isContinuation b₃ then
                .char (Char.ofNat
                  (((n % 0x08 * 0x40 + payload b₁) * 0x40 + payload b₂) * 0x40 + payload b₃)) 3
              else .malformed .invalidContinuation 2
  else .malformed .invalidStart 0

/-- The characters of a byte sequence, malformed runs dropped. -/
def decodeLenient : List UInt8 → List Char
  | [] => []
  | b :: rest =>
    match head b rest with
    | .char c more => c :: decodeLenient (rest.drop more)
    | .malformed _ more => decodeLenient (rest.drop more)
termination_by bytes => bytes.length
decreasing_by all_goals simp only [List.length_cons, List.length_drop]; omega

/-- The first malformed run of a byte sequence. -/
structure Malformed where
  /-- The first byte of the run. -/
  first : UInt8
  /-- Where the run starts. -/
  position : Nat
  /-- How many bytes after the first belong to it. -/
  more : Nat
  why : Defect
deriving DecidableEq, Repr

/-- A defect in words. -/
def Defect.text : Defect → String
  | invalidStart => "invalid start byte"
  | invalidContinuation => "invalid continuation byte"
  | unexpectedEnd => "unexpected end of data"

/-- The message about a malformed run: its only byte, or where it starts and ends. -/
def Malformed.message (m : Malformed) : String :=
  let why := m.why.text
  if m.more = 0 then
    let byte := String.ofList (hex 2 m.first.toNat)
    s!"'utf-8' codec can't decode byte 0x{byte} in position {m.position}: {why}"
  else
    let last := m.position + m.more
    s!"'utf-8' codec can't decode bytes in position {m.position}-{last}: {why}"

/-- Strict reading from the byte at `position` on. -/
def decodeFrom (position : Nat) : List UInt8 → Except Malformed (List Char)
  | [] => .ok []
  | b :: rest =>
    match head b rest with
    | .char c more => (decodeFrom (position + 1 + more) (rest.drop more)).map (c :: ·)
    | .malformed why more => .error { first := b, position, more, why }
termination_by bytes => bytes.length
decreasing_by simp only [List.length_cons, List.length_drop]; omega

/-- The characters of a byte sequence that is well-formed throughout. -/
def decode (bytes : List UInt8) : Except Malformed (List Char) := decodeFrom 0 bytes

end QueryBook.Text.Utf8
