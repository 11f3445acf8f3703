import KnightLang.Host.Utility.Basic
import KnightLang.Text.Decimal

namespace KnightLang.Host.Utility

open Kernel (Call Work)

/-! ### Words and blocks -/

def rotated (x n : UInt32) : UInt32 := (x <<< n) ||| (x >>> (32 - n))

def lowBytes : Nat → Nat → List UInt8
  | 0, _ => []
  | count + 1, n => n.toUInt8 :: lowBytes count (n / 256)

def filledBlocks (bigEndian : Bool) (bs : List UInt8) : List UInt8 :=
  let zeros := (119 - bs.length % 64) % 64
  let length := lowBytes 8 (8 * bs.length)
  bs ++ [0x80] ++ List.replicate zeros 0 ++ (if bigEndian then length.reverse else length)

def wordsOf (bigEndian : Bool) : List UInt8 → List UInt32
  | a :: b :: c :: d :: rest =>
    let n (w x y z : UInt8) : UInt32 :=
      (w.toUInt32 <<< 24) ||| (x.toUInt32 <<< 16) ||| (y.toUInt32 <<< 8) ||| z.toUInt32
    (if bigEndian then n a b c d else n d c b a) :: wordsOf bigEndian rest
  | _ => []

def overBlocks {α : Type} (step : α → Array UInt32 → α) : Nat → α → List UInt32 → α
  | 0, a, _ | _, a, [] => a
  | fuel + 1, a, ws => overBlocks step fuel (step a (ws.take 16).toArray) (ws.drop 16)

def hexWord (bigEndian : Bool) (w : UInt32) : String :=
  let bytes := lowBytes 4 w.toNat
  let digit (n : Nat) : Char := Nat.digitChar n
  (if bigEndian then bytes.reverse else bytes).foldl (fun s b =>
    (s.push (digit (b.toNat / 16))).push (digit (b.toNat % 16))) ""

def digestOf {α : Type} (bigEndian : Bool) (step : α → Array UInt32 → α) (start : α)
    (words : α → List UInt32) (bs : List UInt8) : String :=
  let ws := wordsOf bigEndian (filledBlocks bigEndian bs)
  (words (overBlocks step (ws.length + 1) start ws)).foldl (fun s w => s ++ hexWord bigEndian w) ""

def word (a : Array UInt32) (i : Nat) : UInt32 := (a[i]?).getD 0

/-! ### The older ones -/

structure FourWords where
  a : UInt32
  b : UInt32
  c : UInt32
  d : UInt32

def md5Constants : Array UInt32 :=
  #[0xd76aa478, 0xe8c7b756, 0x242070db, 0xc1bdceee, 0xf57c0faf, 0x4787c62a, 0xa8304613, 0xfd469501,
    0x698098d8, 0x8b44f7af, 0xffff5bb1, 0x895cd7be, 0x6b901122, 0xfd987193, 0xa679438e, 0x49b40821,
    0xf61e2562, 0xc040b340, 0x265e5a51, 0xe9b6c7aa, 0xd62f105d, 0x02441453, 0xd8a1e681, 0xe7d3fbc8,
    0x21e1cde6, 0xc33707d6, 0xf4d50d87, 0x455a14ed, 0xa9e3e905, 0xfcefa3f8, 0x676f02d9, 0x8d2a4c8a,
    0xfffa3942, 0x8771f681, 0x6d9d6122, 0xfde5380c, 0xa4beea44, 0x4bdecfa9, 0xf6bb4b60, 0xbebfbc70,
    0x289b7ec6, 0xeaa127fa, 0xd4ef3085, 0x04881d05, 0xd9d4d039, 0xe6db99e5, 0x1fa27cf8, 0xc4ac5665,
    0xf4292244, 0x432aff97, 0xab9423a7, 0xfc93a039, 0x655b59c3, 0x8f0ccc92, 0xffeff47d, 0x85845dd1,
    0x6fa87e4f, 0xfe2ce6e0, 0xa3014314, 0x4e0811a1, 0xf7537e82, 0xbd3af235, 0x2ad7d2bb, 0xeb86d391]

def md5Shifts : Array UInt32 := #[7, 12, 17, 22, 5, 9, 14, 20, 4, 11, 16, 23, 6, 10, 15, 21]

def md5Step (s : FourWords) (ws : Array UInt32) : FourWords :=
  let r := (List.range 64).foldl (fun (t : FourWords) i =>
    let (f, g) :=
      if i < 16 then ((t.b &&& t.c) ||| (~~~t.b &&& t.d), i)
      else if i < 32 then ((t.d &&& t.b) ||| (~~~t.d &&& t.c), (5 * i + 1) % 16)
      else if i < 48 then (t.b ^^^ t.c ^^^ t.d, (3 * i + 5) % 16)
      else (t.c ^^^ (t.b ||| ~~~t.d), (7 * i) % 16)
    let f := f + t.a + word md5Constants i + word ws g
    ⟨t.d, t.b + rotated f (word md5Shifts (4 * (i / 16) + i % 4)), t.b, t.c⟩) s
  ⟨s.a + r.a, s.b + r.b, s.c + r.c, s.d + r.d⟩

def md5 : List UInt8 → String :=
  digestOf false md5Step ⟨0x67452301, 0xefcdab89, 0x98badcfe, 0x10325476⟩
    fun s => [s.a, s.b, s.c, s.d]

def scheduled (next : Array UInt32 → Nat → UInt32) (count : Nat) (ws : Array UInt32) : Array UInt32 :=
  (List.range (count - 16)).foldl (fun a i => a.push (next a (i + 16))) ws

def sha1Step (s : Array UInt32) (ws : Array UInt32) : Array UInt32 :=
  let ws := scheduled (fun a i =>
    rotated (word a (i - 3) ^^^ word a (i - 8) ^^^ word a (i - 14) ^^^ word a (i - 16)) 1) 80 ws
  let (a, b, c, d, e) := (List.range 80).foldl (fun ((a, b, c, d, e) :
      UInt32 × UInt32 × UInt32 × UInt32 × UInt32) i =>
    let (f, k) : UInt32 × UInt32 :=
      if i < 20 then ((b &&& c) ||| (~~~b &&& d), 0x5a827999)
      else if i < 40 then (b ^^^ c ^^^ d, 0x6ed9eba1)
      else if i < 60 then ((b &&& c) ||| (b &&& d) ||| (c &&& d), 0x8f1bbcdc)
      else (b ^^^ c ^^^ d, 0xca62c1d6)
    (rotated a 5 + f + e + k + word ws i, a, rotated b 30, c, d))
    (word s 0, word s 1, word s 2, word s 3, word s 4)
  #[word s 0 + a, word s 1 + b, word s 2 + c, word s 3 + d, word s 4 + e]

def sha1 : List UInt8 → String :=
  digestOf true sha1Step #[0x67452301, 0xefcdab89, 0x98badcfe, 0x10325476, 0xc3d2e1f0] Array.toList

/-! ### A newer one -/

def sha256Constants : Array UInt32 :=
  #[0x428a2f98, 0x71374491, 0xb5c0fbcf, 0xe9b5dba5, 0x3956c25b, 0x59f111f1, 0x923f82a4, 0xab1c5ed5,
    0xd807aa98, 0x12835b01, 0x243185be, 0x550c7dc3, 0x72be5d74, 0x80deb1fe, 0x9bdc06a7, 0xc19bf174,
    0xe49b69c1, 0xefbe4786, 0x0fc19dc6, 0x240ca1cc, 0x2de92c6f, 0x4a7484aa, 0x5cb0a9dc, 0x76f988da,
    0x983e5152, 0xa831c66d, 0xb00327c8, 0xbf597fc7, 0xc6e00bf3, 0xd5a79147, 0x06ca6351, 0x14292967,
    0x27b70a85, 0x2e1b2138, 0x4d2c6dfc, 0x53380d13, 0x650a7354, 0x766a0abb, 0x81c2c92e, 0x92722c85,
    0xa2bfe8a1, 0xa81a664b, 0xc24b8b70, 0xc76c51a3, 0xd192e819, 0xd6990624, 0xf40e3585, 0x106aa070,
    0x19a4c116, 0x1e376c08, 0x2748774c, 0x34b0bcb5, 0x391c0cb3, 0x4ed8aa4a, 0x5b9cca4f, 0x682e6ff3,
    0x748f82ee, 0x78a5636f, 0x84c87814, 0x8cc70208, 0x90befffa, 0xa4506ceb, 0xbef9a3f7, 0xc67178f2]

def sha256Step (s : Array UInt32) (ws : Array UInt32) : Array UInt32 :=
  let ws := scheduled (fun a i =>
    let x := word a (i - 15)
    let y := word a (i - 2)
    word a (i - 16) + (rotated x 25 ^^^ rotated x 14 ^^^ (x >>> 3)) + word a (i - 7) +
      (rotated y 15 ^^^ rotated y 13 ^^^ (y >>> 10))) 64 ws
  let r := (List.range 64).foldl (fun (t : Array UInt32) i =>
    let (a, b, c, d) := (word t 0, word t 1, word t 2, word t 3)
    let (e, f, g, h) := (word t 4, word t 5, word t 6, word t 7)
    let p := h + (rotated e 26 ^^^ rotated e 21 ^^^ rotated e 7) + ((e &&& f) ^^^ (~~~e &&& g)) +
      word sha256Constants i + word ws i
    let q := (rotated a 30 ^^^ rotated a 19 ^^^ rotated a 10) +
      ((a &&& b) ^^^ (a &&& c) ^^^ (b &&& c))
    #[p + q, a, b, c, d + p, e, f, g]) s
  (Array.range 8).map fun i => word s i + word r i

def sha256 : List UInt8 → String :=
  digestOf true sha256Step
    #[0x6a09e667, 0xbb67ae85, 0x3c6ef372, 0xa54ff53a, 0x510e527f, 0x9b05688c, 0x1f83d9ab, 0x5be0cd19]
    Array.toList

/-! ### Remainders of polynomials -/

def crcByte (crc : UInt32) (b : UInt8) : UInt32 :=
  (List.range 8).foldl (fun c _ =>
    if c &&& 0x80000000 = 0 then c <<< 1 else (c <<< 1) ^^^ 0x04c11db7) (crc ^^^ (b.toUInt32 <<< 24))

def lengthBytes : Nat → Nat → List UInt8
  | 0, _ => []
  | fuel + 1, n => if n = 0 then [] else n.toUInt8 :: lengthBytes fuel (n / 256)

def crc (bs : List UInt8) : Nat :=
  (~~~((bs ++ lengthBytes 9 bs.length).foldl crcByte 0)).toNat

/-! ### Programs -/

def bytesOf (s : String) : List UInt8 := s.toList.map fun c => c.toNat.toUInt8

def digestProgram (digest : List UInt8 → String) : Kernel.Program := fun call =>
  withOptions call 1 { letters := "bct", names := [("binary", 'b'), ("text", 't')] } fun o => do
    let (texts, good) ← readInputs call false plainFault o.operands
    let mark := if o.has 'b' then " *" else "  "
    finish call (join (texts.map fun (path, s) => digest (bytesOf s) ++ mark ++ path ++ "\n"))
      (if good then 0 else 1)

def checkSum : Kernel.Program := fun call =>
  withOptions call 1 { letters := "" } fun o => do
    let (texts, good) ← readInputs call false plainFault o.operands
    finish call (join (texts.map fun (path, s) =>
      Decimal.ofNat (crc (bytesOf s)) ++ " " ++ Decimal.ofNat s.length ++
        (if path = "-" && o.operands.isEmpty then "" else " " ++ path) ++ "\n")) (if good then 0 else 1)

end KnightLang.Host.Utility
