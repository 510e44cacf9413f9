import TypedPipeline.Number.Arithmetic

/-!
# SHA-256

The digest of bytes by the secure hash standard. The bytes are padded to blocks of 64; each block
changes eight words by 64 rounds.

The words are machine words of 32 bits, and additions wrap around. Bytes are joined to words with
the greatest byte first, and the length that is put behind the last block is counted in bits.

No property of the digest is proved in this library, nor is one used. Where digests are compared, it
is what was digested that is said to agree or to differ.

## Main definitions

* `Sha256.digest` — the eight words of a text of bytes
* `Sha256.hex` — the digest in lower-case hexadecimal digits
-/

namespace TypedPipeline.Sha256

/-- The round constants: the first 32 bits of the fractional parts of the cube roots of the first 64
primes. -/
def roundConstants : Array UInt32 := #[
  0x428a2f98, 0x71374491, 0xb5c0fbcf, 0xe9b5dba5, 0x3956c25b, 0x59f111f1, 0x923f82a4, 0xab1c5ed5,
  0xd807aa98, 0x12835b01, 0x243185be, 0x550c7dc3, 0x72be5d74, 0x80deb1fe, 0x9bdc06a7, 0xc19bf174,
  0xe49b69c1, 0xefbe4786, 0x0fc19dc6, 0x240ca1cc, 0x2de92c6f, 0x4a7484aa, 0x5cb0a9dc, 0x76f988da,
  0x983e5152, 0xa831c66d, 0xb00327c8, 0xbf597fc7, 0xc6e00bf3, 0xd5a79147, 0x06ca6351, 0x14292967,
  0x27b70a85, 0x2e1b2138, 0x4d2c6dfc, 0x53380d13, 0x650a7354, 0x766a0abb, 0x81c2c92e, 0x92722c85,
  0xa2bfe8a1, 0xa81a664b, 0xc24b8b70, 0xc76c51a3, 0xd192e819, 0xd6990624, 0xf40e3585, 0x106aa070,
  0x19a4c116, 0x1e376c08, 0x2748774c, 0x34b0bcb5, 0x391c0cb3, 0x4ed8aa4a, 0x5b9cca4f, 0x682e6ff3,
  0x748f82ee, 0x78a5636f, 0x84c87814, 0x8cc70208, 0x90befffa, 0xa4506ceb, 0xbef9a3f7, 0xc67178f2]

/-- The eight words. -/
structure State where
  a : UInt32
  b : UInt32
  c : UInt32
  d : UInt32
  e : UInt32
  f : UInt32
  g : UInt32
  h : UInt32

/-- The words before the first block: the first 32 bits of the fractional parts of the square roots
of the first eight primes. -/
def start : State :=
  ⟨0x6a09e667, 0xbb67ae85, 0x3c6ef372, 0xa54ff53a, 0x510e527f, 0x9b05688c, 0x1f83d9ab, 0x5be0cd19⟩

/-- The words in order. -/
def State.words (s : State) : List UInt32 := [s.a, s.b, s.c, s.d, s.e, s.f, s.g, s.h]

/-- The sum, word by word. -/
def State.add (s t : State) : State :=
  ⟨s.a + t.a, s.b + t.b, s.c + t.c, s.d + t.d, s.e + t.e, s.f + t.f, s.g + t.g, s.h + t.h⟩

/-- Turns the bits of a word to the right. -/
def rotate (x : UInt32) (n : UInt32) : UInt32 := (x >>> n) ||| (x <<< (32 - n))

/-! ### Rounds

Each round takes in one constant and one word of the schedule, and moves the other words by one
place. -/

/-- One round with a constant and a word of the schedule. -/
def round (s : State) (k w : UInt32) : State :=
  let s1 := rotate s.e 6 ^^^ rotate s.e 11 ^^^ rotate s.e 25
  let choice := (s.e &&& s.f) ^^^ ((~~~s.e) &&& s.g)
  let t1 := s.h + s1 + choice + k + w
  let s0 := rotate s.a 2 ^^^ rotate s.a 13 ^^^ rotate s.a 22
  let majority := (s.a &&& s.b) ^^^ (s.a &&& s.c) ^^^ (s.b &&& s.c)
  ⟨t1 + (s0 + majority), s.a, s.b, s.c, s.d + t1, s.e, s.f, s.g⟩

/-- The next word of the schedule, from the words so far. -/
def nextWord (ws : Array UInt32) : UInt32 :=
  let back (n : Nat) : UInt32 := ws.getD (ws.size - n) 0
  let x := back 15
  let y := back 2
  let s0 := rotate x 7 ^^^ rotate x 18 ^^^ (x >>> 3)
  let s1 := rotate y 17 ^^^ rotate y 19 ^^^ (y >>> 10)
  back 16 + s0 + back 7 + s1

/-- The schedule of a block: its sixteen words and 48 more. -/
def schedule (block : Array UInt32) : Array UInt32 :=
  (List.range 48).foldl (fun ws _ => ws.push (nextWord ws)) block

/-- Takes a block into the words. -/
def compress (s : State) (block : Array UInt32) : State :=
  let ws := schedule block
  let mixed := (List.range 64).foldl
    (fun t i => round t (roundConstants.getD i 0) (ws.getD i 0)) s
  s.add mixed

/-! ### Blocks

The padding depends on the length alone, so it is put behind the bytes before they are cut into
blocks. -/

/-- The eight bytes of a length, the greatest first. -/
def lengthBytes (n : Nat) : List UInt8 :=
  (List.range 8).map fun i => UInt8.ofNat (n / 2 ^ (8 * (7 - i)))

/-- The bytes behind a text of `n` bytes: a one bit, zeros, and the length in bits, so that whole
blocks come out. -/
def padding (n : Nat) : List UInt8 :=
  0x80 :: List.replicate ((119 - n % 64) % 64) 0 ++ lengthBytes (8 * n)

/-- The words of bytes: four bytes a word, the greatest first. -/
def wordsOf (bytes : ByteArray) : Array UInt32 :=
  (Array.range (bytes.size / 4)).map fun i =>
    let byte (j : Nat) : UInt32 := ((bytes.data.getD (4 * i + j) 0).toNat).toUInt32
    (byte 0 <<< 24) ||| (byte 1 <<< 16) ||| (byte 2 <<< 8) ||| byte 3

/-- The digest of bytes. -/
def digest (bytes : ByteArray) : State :=
  let padded := (padding bytes.size).foldl ByteArray.push bytes
  let words := wordsOf padded
  (List.range (words.size / 16)).foldl
    (fun s i => compress s (words.extract (16 * i) (16 * i + 16))) start

/-- The eight lower-case hexadecimal digits of a word. -/
def wordHex (w : UInt32) : List Char :=
  let ds := Nat.toDigits 16 w.toNat
  List.replicate (8 - ds.length) '0' ++ ds

/-- The digest in hexadecimal digits. -/
def hex (bytes : ByteArray) : String := String.ofList ((digest bytes).words.flatMap wordHex)

/-- The digest of the bytes of a text. -/
def ofText (s : String) : String := hex s.toUTF8

end TypedPipeline.Sha256
