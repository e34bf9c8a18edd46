import ProxyPlatform.Base.Codec

/-!
# MD5

The message digest MD5: the message is padded to blocks of 64 bytes, and each block mixes
its sixteen words into four, in 64 steps (`md5Step`).
-/

namespace ProxyPlatform

/-- The state of the digest. -/
structure Md5State where
  a : UInt32 := 0x67452301
  b : UInt32 := 0xefcdab89
  c : UInt32 := 0x98badcfe
  d : UInt32 := 0x10325476

/-- The constants of the steps. -/
def md5Constants : List UInt32 :=
  [0xd76aa478, 0xe8c7b756, 0x242070db, 0xc1bdceee, 0xf57c0faf, 0x4787c62a, 0xa8304613, 0xfd469501,
   0x698098d8, 0x8b44f7af, 0xffff5bb1, 0x895cd7be, 0x6b901122, 0xfd987193, 0xa679438e, 0x49b40821,
   0xf61e2562, 0xc040b340, 0x265e5a51, 0xe9b6c7aa, 0xd62f105d, 0x02441453, 0xd8a1e681, 0xe7d3fbc8,
   0x21e1cde6, 0xc33707d6, 0xf4d50d87, 0x455a14ed, 0xa9e3e905, 0xfcefa3f8, 0x676f02d9, 0x8d2a4c8a,
   0xfffa3942, 0x8771f681, 0x6d9d6122, 0xfde5380c, 0xa4beea44, 0x4bdecfa9, 0xf6bb4b60, 0xbebfbc70,
   0x289b7ec6, 0xeaa127fa, 0xd4ef3085, 0x04881d05, 0xd9d4d039, 0xe6db99e5, 0x1fa27cf8, 0xc4ac5665,
   0xf4292244, 0x432aff97, 0xab9423a7, 0xfc93a039, 0x655b59c3, 0x8f0ccc92, 0xffeff47d, 0x85845dd1,
   0x6fa87e4f, 0xfe2ce6e0, 0xa3014314, 0x4e0811a1, 0xf7537e82, 0xbd3af235, 0x2ad7d2bb, 0xeb86d391]

/-- The rotations of the steps, those of each round repeated four times. -/
def md5Rotations : List (List UInt32) := [[7, 12, 17, 22], [5, 9, 14, 20], [4, 11, 16, 23], [6, 10, 15, 21]]

def rotateLeft (x n : UInt32) : UInt32 := x <<< n ||| x >>> (32 - n)

/-- The step `i`, on a block of the words `w`. -/
def md5Step (w : List UInt32) (s : Md5State) (i : ℕ) : Md5State :=
  let (f, g) :=
    if i < 16 then (s.b &&& s.c ||| ~~~s.b &&& s.d, i)
    else if i < 32 then (s.d &&& s.b ||| ~~~s.d &&& s.c, (5 * i + 1) % 16)
    else if i < 48 then (s.b ^^^ s.c ^^^ s.d, (3 * i + 5) % 16)
    else (s.c ^^^ (s.b ||| ~~~s.d), 7 * i % 16)
  let rotation := (md5Rotations.getD (i / 16) []).getD (i % 4) 0
  { a := s.d
    b := s.b + rotateLeft (f + s.a + md5Constants.getD i 0 + w.getD g 0) rotation
    c := s.b
    d := s.c }

/-- The `n` words at the start of `bytes`, the lowest byte of each first. -/
def md5Words : ℕ → Bytes → List UInt32
  | 0, _ => []
  | n + 1, bytes => match readNumber 4 bytes with
    | none => []
    | some (word, rest) => UInt32.ofNat word :: md5Words n rest

/-- The `n` blocks at the start of `bytes`, mixed into the state. -/
def md5Blocks : ℕ → Bytes → Md5State → Md5State
  | 0, _, s => s
  | n + 1, bytes, s =>
    let t := (List.range 64).foldl (md5Step (md5Words 16 bytes)) s
    md5Blocks n (bytes.drop 64) { a := s.a + t.a, b := s.b + t.b, c := s.c + t.c, d := s.d + t.d }

/-- `Md5`. -/
def md5 (bytes : Bytes) : Bytes :=
  let zeros := (119 - bytes.length % 64) % 64
  let padded := bytes ++ 0x80 :: List.replicate zeros 0 ++ writeNumber 8 (8 * bytes.length)
  let s := md5Blocks (padded.length / 64) padded {}
  [s.a, s.b, s.c, s.d].flatMap fun word => writeNumber 4 word.toNat

theorem length_md5 (bytes : Bytes) : (md5 bytes).length = 16 := by
  simp [md5, length_writeNumber]

example : md5 [] = [0xd4, 0x1d, 0x8c, 0xd9, 0x8f, 0x00, 0xb2, 0x04, 0xe9, 0x80, 0x09, 0x98, 0xec, 0xf8,
    0x42, 0x7e] := by
  decide +kernel

end ProxyPlatform
