/-! The 64-bit XXH3 hash with seed zero and the default secret. -/
namespace PatternFinder.Hash

private def byteAt (bytes : ByteArray) (i : Nat) : UInt8 :=
  if h : i < bytes.size then bytes[i] else 0

private def read32 (bytes : ByteArray) (i : Nat) : UInt64 :=
  (byteAt bytes i).toUInt64 ||| ((byteAt bytes (i + 1)).toUInt64 <<< 8) |||
    ((byteAt bytes (i + 2)).toUInt64 <<< 16) ||| ((byteAt bytes (i + 3)).toUInt64 <<< 24)

private def read64 (bytes : ByteArray) (i : Nat) : UInt64 :=
  read32 bytes i ||| (read32 bytes (i + 4) <<< 32)

private def secret : ByteArray := ⟨#[
  0xb8, 0xfe, 0x6c, 0x39, 0x23, 0xa4, 0x4b, 0xbe, 0x7c, 0x01, 0x81, 0x2c, 0xf7, 0x21, 0xad, 0x1c,
  0xde, 0xd4, 0x6d, 0xe9, 0x83, 0x90, 0x97, 0xdb, 0x72, 0x40, 0xa4, 0xa4, 0xb7, 0xb3, 0x67, 0x1f,
  0xcb, 0x79, 0xe6, 0x4e, 0xcc, 0xc0, 0xe5, 0x78, 0x82, 0x5a, 0xd0, 0x7d, 0xcc, 0xff, 0x72, 0x21,
  0xb8, 0x08, 0x46, 0x74, 0xf7, 0x43, 0x24, 0x8e, 0xe0, 0x35, 0x90, 0xe6, 0x81, 0x3a, 0x26, 0x4c,
  0x3c, 0x28, 0x52, 0xbb, 0x91, 0xc3, 0x00, 0xcb, 0x88, 0xd0, 0x65, 0x8b, 0x1b, 0x53, 0x2e, 0xa3,
  0x71, 0x64, 0x48, 0x97, 0xa2, 0x0d, 0xf9, 0x4e, 0x38, 0x19, 0xef, 0x46, 0xa9, 0xde, 0xac, 0xd8,
  0xa8, 0xfa, 0x76, 0x3f, 0xe3, 0x9c, 0x34, 0x3f, 0xf9, 0xdc, 0xbb, 0xc7, 0xc7, 0x0b, 0x4f, 0x1d,
  0x8a, 0x51, 0xe0, 0x4b, 0xcd, 0xb4, 0x59, 0x31, 0xc8, 0x9f, 0x7e, 0xc9, 0xd9, 0x78, 0x73, 0x64,
  0xea, 0xc5, 0xac, 0x83, 0x34, 0xd3, 0xeb, 0xc3, 0xc5, 0x81, 0xa0, 0xff, 0xfa, 0x13, 0x63, 0xeb,
  0x17, 0x0d, 0xdd, 0x51, 0xb7, 0xf0, 0xda, 0x49, 0xd3, 0x16, 0x55, 0x26, 0x29, 0xd4, 0x68, 0x9e,
  0x2b, 0x16, 0xbe, 0x58, 0x7d, 0x47, 0xa1, 0xfc, 0x8f, 0xf8, 0xb8, 0xd1, 0x7a, 0xd0, 0x31, 0xce,
  0x45, 0xcb, 0x3a, 0x8f, 0x95, 0x16, 0x04, 0x28, 0xaf, 0xd7, 0xfb, 0xca, 0xbb, 0x4b, 0x40, 0x7e]⟩

private def prime32 : Fin 3 → UInt64
  | 0 => 0x9E3779B1
  | 1 => 0x85EBCA77
  | 2 => 0xC2B2AE3D

private def prime64 : Fin 5 → UInt64
  | 0 => 0x9E3779B185EBCA87
  | 1 => 0xC2B2AE3D27D4EB4F
  | 2 => 0x165667B19E3779F9
  | 3 => 0x85EBCA77C2B2AE63
  | 4 => 0x27D4EB2F165667C5

private def rotateLeft (x : UInt64) (n : UInt64) : UInt64 := (x <<< n) ||| (x >>> (64 - n))

private def swapBytes (x : UInt64) : UInt64 :=
  (List.range 8).foldl (fun acc i =>
    (acc <<< 8) ||| ((x >>> UInt64.ofNat (8 * i)) &&& 0xFF)) 0

/-- The exclusive or of the two halves of the 128-bit product. -/
private def foldMul (a b : UInt64) : UInt64 :=
  let p := a.toNat * b.toNat
  UInt64.ofNat p ^^^ UInt64.ofNat (p / UInt64.size)

private def avalanche (h : UInt64) : UInt64 :=
  let h := (h ^^^ (h >>> 37)) * 0x165667919E3779F9
  h ^^^ (h >>> 32)

private def strongAvalanche (h : UInt64) : UInt64 :=
  let h := (h ^^^ (h >>> 33)) * prime64 1
  let h := (h ^^^ (h >>> 29)) * prime64 2
  h ^^^ (h >>> 32)

private def mix16 (bytes : ByteArray) (i : Nat) (key : Nat) : UInt64 :=
  foldMul (read64 bytes i ^^^ read64 secret key) (read64 bytes (i + 8) ^^^ read64 secret (key + 8))

private def hashUpTo3 (bytes : ByteArray) : UInt64 :=
  let n := bytes.size
  let first := (byteAt bytes 0).toUInt64
  let middle := (byteAt bytes (n / 2)).toUInt64
  let last := (byteAt bytes (n - 1)).toUInt64
  let combined := (first <<< 16) ||| (middle <<< 24) ||| last ||| (UInt64.ofNat n <<< 8)
  strongAvalanche (combined ^^^ (read32 secret 0 ^^^ read32 secret 4))

private def hashUpTo8 (bytes : ByteArray) : UInt64 :=
  let n := bytes.size
  let input := read32 bytes (n - 4) + (read32 bytes 0 <<< 32)
  let h := input ^^^ (read64 secret 8 ^^^ read64 secret 16)
  let h := (h ^^^ rotateLeft h 49 ^^^ rotateLeft h 24) * 0x9FB21C651E98DF25
  let h := (h ^^^ ((h >>> 35) + UInt64.ofNat n)) * 0x9FB21C651E98DF25
  h ^^^ (h >>> 28)

private def hashUpTo16 (bytes : ByteArray) : UInt64 :=
  let n := bytes.size
  let lo := read64 bytes 0 ^^^ (read64 secret 24 ^^^ read64 secret 32)
  let hi := read64 bytes (n - 8) ^^^ (read64 secret 40 ^^^ read64 secret 48)
  avalanche (UInt64.ofNat n + swapBytes lo + hi + foldMul lo hi)

/-- Up to 128 bytes: pairs of sixteen-byte lanes taken from both ends inward. -/
private def hashUpTo128 (bytes : ByteArray) : UInt64 :=
  let n := bytes.size
  let pairs := (n - 1) / 32 + 1
  avalanche <| (List.range pairs).foldl (fun acc k =>
    acc + mix16 bytes (16 * k) (32 * k) + mix16 bytes (n - 16 * (k + 1)) (32 * k + 16))
    (UInt64.ofNat n * prime64 0)

private def hashUpTo240 (bytes : ByteArray) : UInt64 :=
  let n := bytes.size
  let head := (List.range 8).foldl (fun acc i => acc + mix16 bytes (16 * i) (16 * i))
    (UInt64.ofNat n * prime64 0)
  let body := (List.range (n / 16 - 8)).foldl (fun acc i =>
    acc + mix16 bytes (16 * (i + 8)) (16 * i + 3)) (avalanche head)
  avalanche (body + mix16 bytes (n - 16) 119)

/-- The eight accumulators of the long form. -/
private abbrev Lanes := Vector UInt64 8

private def initialLanes : Lanes :=
  #v[prime32 2, prime64 0, prime64 1, prime64 2, prime64 3, prime32 1, prime64 4, prime32 0]

private def absorb (bytes : ByteArray) (i : Nat) (key : Nat) (lanes : Lanes) : Lanes :=
  Vector.ofFn fun (k : Fin 8) =>
    let keyed := read64 bytes (i + 8 * k.val) ^^^ read64 secret (key + 8 * k.val)
    let across := read64 bytes (i + 8 * (k.val ^^^ 1))
    let low : UInt64 := keyed &&& (0xFFFFFFFF : UInt64)
    lanes[k] + across + low * (keyed >>> (32 : UInt64))

private def scramble (lanes : Lanes) : Lanes :=
  Vector.ofFn fun (k : Fin 8) =>
    let x : UInt64 := lanes[k]
    ((x ^^^ (x >>> (47 : UInt64))) ^^^ read64 secret (128 + 8 * k.val)) * prime32 0

private def absorbStripes (bytes : ByteArray) (start count : Nat) (lanes : Lanes) : Lanes :=
  (List.range count).foldl (fun acc s => absorb bytes (start + 64 * s) (8 * s) acc) lanes

private def mergeLanes (lanes : Lanes) (start : UInt64) : UInt64 :=
  let lane (i : Nat) : UInt64 := lanes[i]?.getD 0
  avalanche <| (List.range 4).foldl (fun acc i =>
    acc + foldMul (lane (2 * i) ^^^ read64 secret (11 + 16 * i))
      (lane (2 * i + 1) ^^^ read64 secret (19 + 16 * i))) start

/-- More than 240 bytes: blocks of sixteen 64-byte stripes, scrambled between blocks, and a last
stripe that ends with the input. -/
private def hashLong (bytes : ByteArray) : UInt64 :=
  let n := bytes.size
  let blocks := (n - 1) / 1024
  let lanes := (List.range blocks).foldl (fun acc b =>
    scramble (absorbStripes bytes (1024 * b) 16 acc)) initialLanes
  let lanes := absorbStripes bytes (1024 * blocks) ((n - 1 - 1024 * blocks) / 64) lanes
  let lanes := absorb bytes (n - 64) 121 lanes
  mergeLanes lanes (UInt64.ofNat n * prime64 0)

/-- The hash of a byte sequence. -/
def xxh3 (bytes : ByteArray) : UInt64 :=
  let n := bytes.size
  if n == 0 then strongAvalanche (read64 secret 56 ^^^ read64 secret 64)
  else if n ≤ 3 then hashUpTo3 bytes
  else if n ≤ 8 then hashUpTo8 bytes
  else if n ≤ 16 then hashUpTo16 bytes
  else if n ≤ 128 then hashUpTo128 bytes
  else if n ≤ 240 then hashUpTo240 bytes
  else hashLong bytes

end PatternFinder.Hash
