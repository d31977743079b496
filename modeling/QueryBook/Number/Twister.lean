/-!
# Pseudo-random bytes

The Mersenne twister with 624 words of 32 bits, started from the words of a number of any size,
and the bytes it gives: each word it puts out gives four bytes, the lowest first, and of the last
word only the topmost bits that are asked for are used.
-/

namespace QueryBook.Twister

/-- How many words the state has. -/
def size : Nat := 624

/-- The word at a place of the state. -/
def word (state : Array UInt32) (i : Nat) : UInt32 := state.getD i 0

/-- Appends `n` words to a state that was started from a single word. -/
def seedWords (state : Array UInt32) : Nat → Array UInt32
  | 0 => state
  | n + 1 =>
    let last := word state (state.size - 1)
    let next := (last ^^^ (last >>> 30)) * 1812433253 + UInt32.ofNat state.size
    seedWords (state.push next) n

/-- The state started from a single word. -/
def ofWord (seed : UInt32) : Array UInt32 := seedWords #[seed] (size - 1)

/-- Copies the last word to the front once the end of the state is reached. -/
def wrap (state : Array UInt32) (i : Nat) : Array UInt32 × Nat :=
  if i ≥ size then (state.setIfInBounds 0 (word state (size - 1)), 1) else (state, i)

/-- Mixes the words of a key into the state, `n` times. -/
def mixKey (key : Array UInt32) (state : Array UInt32) (i j : Nat) : Nat → Array UInt32 × Nat
  | 0 => (state, i)
  | n + 1 =>
    let last := word state (i - 1)
    let mixed := (word state i ^^^ ((last ^^^ (last >>> 30)) * 1664525)) + word key j + .ofNat j
    let (state, i) := wrap (state.setIfInBounds i mixed) (i + 1)
    mixKey key state i (if j + 1 ≥ key.size then 0 else j + 1) n

/-- Mixes the places of the words into the state, `n` times. -/
def mixPlaces (state : Array UInt32) (i : Nat) : Nat → Array UInt32
  | 0 => state
  | n + 1 =>
    let last := word state (i - 1)
    let mixed := (word state i ^^^ ((last ^^^ (last >>> 30)) * 1566083941)) - .ofNat i
    let (state, i) := wrap (state.setIfInBounds i mixed) (i + 1)
    mixPlaces state i n

/-- The state started from the words of a key. -/
def ofKey (key : Array UInt32) : Array UInt32 :=
  let (state, i) := mixKey key (ofWord 19650218) 1 0 (max size key.size)
  (mixPlaces state i (size - 1)).setIfInBounds 0 0x80000000

/-- The words of a number, the lowest first; `fuel` bounds their count. -/
def wordsOf (n : Nat) : Nat → List UInt32
  | 0 => []
  | fuel + 1 => .ofNat n :: if n < Nat.pow 2 32 then [] else wordsOf (n / Nat.pow 2 32) fuel

/-- The state started from a number; its sign does not matter. -/
def ofSeed (seed : Int) : Array UInt32 :=
  ofKey (wordsOf seed.natAbs (seed.natAbs.log2 / 32 + 1)).toArray

/-- Replaces the word at place `i`. -/
def twistAt (state : Array UInt32) (i : Nat) : Array UInt32 :=
  let y := (word state i &&& 0x80000000) ||| (word state ((i + 1) % size) &&& 0x7fffffff)
  let mag : UInt32 := if y &&& 1 = 0 then 0 else 0x9908b0df
  state.setIfInBounds i (word state ((i + 397) % size) ^^^ (y >>> 1) ^^^ mag)

/-- The state after all its words have been put out. -/
def twist (state : Array UInt32) : Array UInt32 := (List.range size).foldl twistAt state

/-- The word put out for a word of the state. -/
def temper (y : UInt32) : UInt32 :=
  let y := y ^^^ (y >>> 11)
  let y := y ^^^ ((y <<< 7) &&& 0x9d2c5680)
  let y := y ^^^ ((y <<< 15) &&& 0xefc60000)
  y ^^^ (y >>> 18)

/-- The next `n` words put out, where the words of the state before place `i` are used up. -/
def outputs (state : Array UInt32) (i : Nat) : Nat → List UInt32
  | 0 => []
  | n + 1 =>
    if i ≥ size then
      let next := twist state
      temper (word next 0) :: outputs next 1 n
    else temper (word state i) :: outputs state (i + 1) n

/-- The lowest `n` bytes of a word, the lowest first. -/
def wordBytes (w : UInt32) : Nat → List UInt8
  | 0 => []
  | n + 1 => w.toUInt8 :: wordBytes (w >>> 8) n

/-- The first `n` bytes of a sequence of words. -/
def bytesOf : List UInt32 → Nat → List UInt8
  | [], _ => []
  | w :: ws, n =>
    if n ≥ 4 then wordBytes w 4 ++ bytesOf ws (n - 4)
    else wordBytes (w >>> .ofNat (32 - 8 * n)) n

/-- So many pseudo-random bytes from a seed. -/
def bytes (seed : Int) (count : Nat) : List UInt8 :=
  bytesOf (outputs (ofSeed seed) size ((count + 3) / 4)) count

end QueryBook.Twister
