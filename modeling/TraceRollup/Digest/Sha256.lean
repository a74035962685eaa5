/-!
# SHA-256

The digest of a byte string: the message is padded to blocks of 64 bytes, and each block is
mixed into eight words of 32 bits by 64 rounds. `firstWord` is the part of the digest that
places a text on the hash ring.
-/

namespace TraceRollup.Sha256

/-- First 32 bits of the fractional parts of the cube roots of the first 64 primes. -/
def roundConstants : List UInt32 := [
  0x428a2f98, 0x71374491, 0xb5c0fbcf, 0xe9b5dba5, 0x3956c25b, 0x59f111f1, 0x923f82a4, 0xab1c5ed5,
  0xd807aa98, 0x12835b01, 0x243185be, 0x550c7dc3, 0x72be5d74, 0x80deb1fe, 0x9bdc06a7, 0xc19bf174,
  0xe49b69c1, 0xefbe4786, 0x0fc19dc6, 0x240ca1cc, 0x2de92c6f, 0x4a7484aa, 0x5cb0a9dc, 0x76f988da,
  0x983e5152, 0xa831c66d, 0xb00327c8, 0xbf597fc7, 0xc6e00bf3, 0xd5a79147, 0x06ca6351, 0x14292967,
  0x27b70a85, 0x2e1b2138, 0x4d2c6dfc, 0x53380d13, 0x650a7354, 0x766a0abb, 0x81c2c92e, 0x92722c85,
  0xa2bfe8a1, 0xa81a664b, 0xc24b8b70, 0xc76c51a3, 0xd192e819, 0xd6990624, 0xf40e3585, 0x106aa070,
  0x19a4c116, 0x1e376c08, 0x2748774c, 0x34b0bcb5, 0x391c0cb3, 0x4ed8aa4a, 0x5b9cca4f, 0x682e6ff3,
  0x748f82ee, 0x78a5636f, 0x84c87814, 0x8cc70208, 0x90befffa, 0xa4506ceb, 0xbef9a3f7, 0xc67178f2]

/-- The eight words that a message is mixed into. -/
structure Words where
  a : UInt32
  b : UInt32
  c : UInt32
  d : UInt32
  e : UInt32
  f : UInt32
  g : UInt32
  h : UInt32
  deriving DecidableEq

/-- First 32 bits of the fractional parts of the square roots of the first eight primes. -/
def start : Words :=
  ⟨0x6a09e667, 0xbb67ae85, 0x3c6ef372, 0xa54ff53a, 0x510e527f, 0x9b05688c, 0x1f83d9ab, 0x5be0cd19⟩

def rotate (n : UInt32) (x : UInt32) : UInt32 := (x >>> n) ||| (x <<< (32 - n))

def round (w : Words) (word constant : UInt32) : Words :=
  let mixE := rotate 6 w.e ^^^ rotate 11 w.e ^^^ rotate 25 w.e
  let choice := (w.e &&& w.f) ^^^ ((~~~ w.e) &&& w.g)
  let t := w.h + mixE + choice + constant + word
  let mixA := rotate 2 w.a ^^^ rotate 13 w.a ^^^ rotate 22 w.a
  let majority := (w.a &&& w.b) ^^^ (w.a &&& w.c) ^^^ (w.b &&& w.c)
  ⟨t + (mixA + majority), w.a, w.b, w.c, w.d + t, w.e, w.f, w.g⟩

/-- The next word of the schedule from the last sixteen, oldest first. -/
def nextWord (window : List UInt32) : UInt32 :=
  let x := window.getD 1 0
  let y := window.getD 14 0
  let s := rotate 7 x ^^^ rotate 18 x ^^^ (x >>> 3)
  let t := rotate 17 y ^^^ rotate 19 y ^^^ (y >>> 10)
  window.getD 0 0 + s + window.getD 9 0 + t

/-- All rounds: each uses the oldest word of the window and moves the window on. -/
def rounds : List UInt32 → List UInt32 → Words → Words
  | [], _, w => w
  | k :: ks, window, w =>
    rounds ks (window.drop 1 ++ [nextWord window]) (round w (window.headD 0) k)

def mixBlock (w : Words) (block : List UInt32) : Words :=
  let r := rounds roundConstants block w
  ⟨w.a + r.a, w.b + r.b, w.c + r.c, w.d + r.d, w.e + r.e, w.f + r.f, w.g + r.g, w.h + r.h⟩

/-- `n` in `count` bytes, the most significant first. -/
def bigEndian : (count : Nat) → (n : Nat) → List UInt8
  | 0, _ => []
  | count + 1, n => UInt8.ofNat (n / Nat.pow 256 count) :: bigEndian count n

/-- The message, a bit 1, zeros up to a whole number of blocks, and the length in bits. -/
def pad (message : List UInt8) : List UInt8 :=
  message ++ 0x80 :: List.replicate ((119 - message.length % 64) % 64) 0 ++ bigEndian 8 (8 * message.length)

def toWords : List UInt8 → List UInt32
  | a :: b :: c :: d :: rest =>
    ((a.toUInt32 <<< 24) ||| (b.toUInt32 <<< 16) ||| (c.toUInt32 <<< 8) ||| d.toUInt32) :: toWords rest
  | _ => []

/-- Mixes in sixteen words at a time (`fuel` bounds the number of blocks). -/
def mixAll : Nat → Words → List UInt32 → Words
  | 0, w, _ => w
  | fuel + 1, w, words =>
    if words.isEmpty then w else mixAll fuel (mixBlock w (words.take 16)) (words.drop 16)

def digest (message : List UInt8) : Words :=
  let words := toWords (pad message)
  mixAll words.length start words

/-- The first eight bytes of a text's digest as a number, the most significant first. -/
def firstWord (text : String) : UInt64 :=
  let w := digest text.toUTF8.toList
  (w.a.toUInt64 <<< 32) ||| w.b.toUInt64

end TraceRollup.Sha256
