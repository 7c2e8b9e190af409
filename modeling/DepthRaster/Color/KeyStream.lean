/-!
# Key streams

The stream of words of a stream cipher: blocks of 16 words, each a scrambling of constants, a key of
eight words and a counter. Twelve rounds are made on columns and diagonals in turn.
-/

namespace DepthRaster.Color.KeyStream

abbrev Block := Array UInt32

def rotateLeft (w : UInt32) (n : UInt32) : UInt32 := (w <<< n) ||| (w >>> (32 - n))

def quarterRound (s : Block) (a b c d : Nat) : Block :=
  let wa := s.getD a 0
  let wb := s.getD b 0
  let wc := s.getD c 0
  let wd := s.getD d 0
  let wa := wa + wb
  let wd := rotateLeft (wd ^^^ wa) 16
  let wc := wc + wd
  let wb := rotateLeft (wb ^^^ wc) 12
  let wa := wa + wb
  let wd := rotateLeft (wd ^^^ wa) 8
  let wc := wc + wd
  let wb := rotateLeft (wb ^^^ wc) 7
  ((s.setIfInBounds a wa).setIfInBounds b wb |>.setIfInBounds c wc).setIfInBounds d wd

/-- A round on the columns and a round on the diagonals. -/
def doubleRound (s : Block) : Block :=
  let s := quarterRound s 0 4 8 12
  let s := quarterRound s 1 5 9 13
  let s := quarterRound s 2 6 10 14
  let s := quarterRound s 3 7 11 15
  let s := quarterRound s 0 5 10 15
  let s := quarterRound s 1 6 11 12
  let s := quarterRound s 2 7 8 13
  quarterRound s 3 4 9 14

/-- The words before scrambling: constants, key, counter, and the number of the stream, which is
zero. -/
def initial (key : List UInt32) (counter : UInt64) : Block :=
  (#[0x61707865, 0x3320646E, 0x79622D32, 0x6B206574] : Array UInt32) ++ key.toArray ++
    #[counter.toUInt32, (counter >>> 32).toUInt32, 0, 0]

def block (key : List UInt32) (counter : UInt64) : List UInt32 :=
  let start := initial key counter
  let scrambled := Nat.repeat doubleRound 6 start
  (scrambled.zipWith (· + ·) start).toList

/-- One step of the generator that makes keys: a linear step, then a word taken from the state. -/
def seedStep (state : UInt64) : UInt32 × UInt64 :=
  let state := state * 6364136223846793005 + 11634580027462260723
  let word := (((state >>> 18) ^^^ state) >>> 27).toUInt32
  let turn := (state >>> 59).toUInt32
  ((word >>> turn) ||| (word <<< ((32 - turn) % 32)), state)

def keyWords : Nat → UInt64 → List UInt32
  | 0, _ => []
  | n + 1, state =>
    let (word, state) := seedStep state
    word :: keyWords n state

def ofSeed (seed : UInt64) : List UInt32 := block (keyWords 8 seed) 0

end DepthRaster.Color.KeyStream
