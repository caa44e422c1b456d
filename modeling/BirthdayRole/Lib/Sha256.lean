/-
# SHA-256 and HMAC

FIPS 180-4 and RFC 2104 on lists of bytes.
-/

namespace Sha256

def initial : List UInt32 :=
  [0x6a09e667, 0xbb67ae85, 0x3c6ef372, 0xa54ff53a, 0x510e527f, 0x9b05688c, 0x1f83d9ab, 0x5be0cd19]

def constants : List UInt32 :=
  [0x428a2f98, 0x71374491, 0xb5c0fbcf, 0xe9b5dba5, 0x3956c25b, 0x59f111f1, 0x923f82a4, 0xab1c5ed5,
    0xd807aa98, 0x12835b01, 0x243185be, 0x550c7dc3, 0x72be5d74, 0x80deb1fe, 0x9bdc06a7, 0xc19bf174,
    0xe49b69c1, 0xefbe4786, 0x0fc19dc6, 0x240ca1cc, 0x2de92c6f, 0x4a7484aa, 0x5cb0a9dc, 0x76f988da,
    0x983e5152, 0xa831c66d, 0xb00327c8, 0xbf597fc7, 0xc6e00bf3, 0xd5a79147, 0x06ca6351, 0x14292967,
    0x27b70a85, 0x2e1b2138, 0x4d2c6dfc, 0x53380d13, 0x650a7354, 0x766a0abb, 0x81c2c92e, 0x92722c85,
    0xa2bfe8a1, 0xa81a664b, 0xc24b8b70, 0xc76c51a3, 0xd192e819, 0xd6990624, 0xf40e3585, 0x106aa070,
    0x19a4c116, 0x1e376c08, 0x2748774c, 0x34b0bcb5, 0x391c0cb3, 0x4ed8aa4a, 0x5b9cca4f, 0x682e6ff3,
    0x748f82ee, 0x78a5636f, 0x84c87814, 0x8cc70208, 0x90befffa, 0xa4506ceb, 0xbef9a3f7, 0xc67178f2]

def rotr (n x : UInt32) : UInt32 := (x >>> n) ||| (x <<< (32 - n))

/-- The message schedule so far, the newest word first, and `n` more words. -/
def expand : Nat → List UInt32 → List UInt32
  | 0, ws => ws
  | n + 1, ws =>
    let w (i : Nat) : UInt32 := ws.getD (i - 1) 0
    let s0 := rotr 7 (w 15) ^^^ rotr 18 (w 15) ^^^ (w 15 >>> 3)
    let s1 := rotr 17 (w 2) ^^^ rotr 19 (w 2) ^^^ (w 2 >>> 10)
    expand n ((s1 + w 7 + s0 + w 16) :: ws)

def round (h : List UInt32) (kw : UInt32 × UInt32) : List UInt32 :=
  match h with
  | [a, b, c, d, e, f, g, k] =>
    let s1 := rotr 6 e ^^^ rotr 11 e ^^^ rotr 25 e
    let ch := (e &&& f) ^^^ (~~~e &&& g)
    let t1 := k + s1 + ch + kw.1 + kw.2
    let s0 := rotr 2 a ^^^ rotr 13 a ^^^ rotr 22 a
    let maj := (a &&& b) ^^^ (a &&& c) ^^^ (b &&& c)
    [t1 + (s0 + maj), a, b, c, d + t1, e, f, g]
  | _ => h

def compress (h block : List UInt32) : List UInt32 :=
  let ws := (expand 48 block.reverse).reverse
  List.zipWith (· + ·) h ((constants.zip ws).foldl round h)

/-- Words of four bytes, the highest byte first. -/
def words : List UInt8 → List UInt32
  | a :: b :: c :: d :: bs =>
    ((a.toUInt32 <<< 24) ||| (b.toUInt32 <<< 16) ||| (c.toUInt32 <<< 8) ||| d.toUInt32) :: words bs
  | _ => []

def bytesOf (w : UInt32) : List UInt8 :=
  [(w >>> 24).toUInt8, (w >>> 16).toUInt8, (w >>> 8).toUInt8, w.toUInt8]

/-- A number in eight bytes, the highest byte first. -/
def lengthBytes (n : Nat) : List UInt8 :=
  (List.range 8).reverse.map fun i => UInt8.ofNat (n >>> (8 * i))

/-- The message, a one bit, zeros, and its length in bits. -/
def pad (msg : List UInt8) : List UInt8 :=
  msg ++ 0x80 :: List.replicate ((119 - msg.length % 64) % 64) 0 ++ lengthBytes (8 * msg.length)

/-- The blocks of sixteen words, `n` of them at most. -/
def blocks : Nat → List UInt32 → List (List UInt32)
  | 0, _ => []
  | n + 1, ws => if ws.isEmpty then [] else ws.take 16 :: blocks n (ws.drop 16)

def sha256 (msg : List UInt8) : List UInt8 :=
  let ws := words (pad msg)
  ((blocks ws.length ws).foldl compress initial).flatMap bytesOf

/-- The tag of a message under a key. -/
def hmac (key msg : List UInt8) : List UInt8 :=
  let short := if key.length > 64 then sha256 key else key
  let block := short ++ List.replicate (64 - short.length) 0
  sha256 (block.map (· ^^^ 0x5c) ++ sha256 (block.map (· ^^^ 0x36) ++ msg))

example : (sha256 [97, 98, 99]).take 4 = [0xba, 0x78, 0x16, 0xbf] := by decide +kernel

example : (hmac (List.replicate 20 0x0b) [72, 105, 32, 84, 104, 101, 114, 101]).take 4 =
    [0xb0, 0x34, 0x4c, 0x61] := by decide +kernel

end Sha256
