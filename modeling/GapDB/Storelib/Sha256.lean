import GapDB.Storelib.Bytes

/-!
# SHA-256

The hash function, on words that are natural numbers below `2 ^ 32`.
-/

namespace Storelib

namespace Sha256

def word (n : Nat) : Nat := n % 2 ^ 32

def rotate (n x : Nat) : Nat := word (x >>> n ||| x <<< (32 - n))

/-- The round constants. -/
def constants : List Nat :=
  [0x428a2f98, 0x71374491, 0xb5c0fbcf, 0xe9b5dba5, 0x3956c25b, 0x59f111f1, 0x923f82a4, 0xab1c5ed5,
   0xd807aa98, 0x12835b01, 0x243185be, 0x550c7dc3, 0x72be5d74, 0x80deb1fe, 0x9bdc06a7, 0xc19bf174,
   0xe49b69c1, 0xefbe4786, 0x0fc19dc6, 0x240ca1cc, 0x2de92c6f, 0x4a7484aa, 0x5cb0a9dc, 0x76f988da,
   0x983e5152, 0xa831c66d, 0xb00327c8, 0xbf597fc7, 0xc6e00bf3, 0xd5a79147, 0x06ca6351, 0x14292967,
   0x27b70a85, 0x2e1b2138, 0x4d2c6dfc, 0x53380d13, 0x650a7354, 0x766a0abb, 0x81c2c92e, 0x92722c85,
   0xa2bfe8a1, 0xa81a664b, 0xc24b8b70, 0xc76c51a3, 0xd192e819, 0xd6990624, 0xf40e3585, 0x106aa070,
   0x19a4c116, 0x1e376c08, 0x2748774c, 0x34b0bcb5, 0x391c0cb3, 0x4ed8aa4a, 0x5b9cca4f, 0x682e6ff3,
   0x748f82ee, 0x78a5636f, 0x84c87814, 0x8cc70208, 0x90befffa, 0xa4506ceb, 0xbef9a3f7, 0xc67178f2]

structure State where
  a : Nat
  b : Nat
  c : Nat
  d : Nat
  e : Nat
  f : Nat
  g : Nat
  h : Nat
deriving DecidableEq

def initial : State :=
  ⟨0x6a09e667, 0xbb67ae85, 0x3c6ef372, 0xa54ff53a, 0x510e527f, 0x9b05688c,
    0x1f83d9ab, 0x5be0cd19⟩

def State.add (s t : State) : State :=
  ⟨word (s.a + t.a), word (s.b + t.b), word (s.c + t.c), word (s.d + t.d), word (s.e + t.e),
    word (s.f + t.f), word (s.g + t.g), word (s.h + t.h)⟩

def State.words (s : State) : List Nat := [s.a, s.b, s.c, s.d, s.e, s.f, s.g, s.h]

/-- One more word of the message schedule. -/
def extend (ws : List Nat) : List Nat :=
  let at_ i := ws.getD (ws.length - i) 0
  let s0 := rotate 7 (at_ 15) ^^^ rotate 18 (at_ 15) ^^^ (at_ 15 >>> 3)
  let s1 := rotate 17 (at_ 2) ^^^ rotate 19 (at_ 2) ^^^ (at_ 2 >>> 10)
  ws ++ [word (at_ 16 + s0 + at_ 7 + s1)]

def schedule (block : Bytes) : List Nat :=
  let ws := (List.range 16).map fun i => uint (slice block (4 * i) (4 * i + 4))
  (List.range 48).foldl (fun ws _ => extend ws) ws

def round (s : State) (kw : Nat × Nat) : State :=
  let s1 := rotate 6 s.e ^^^ rotate 11 s.e ^^^ rotate 25 s.e
  let choice := (s.e &&& s.f) ^^^ ((2 ^ 32 - 1 - s.e) &&& s.g)
  let t1 := s.h + s1 + choice + kw.1 + kw.2
  let s0 := rotate 2 s.a ^^^ rotate 13 s.a ^^^ rotate 22 s.a
  let majority := (s.a &&& s.b) ^^^ (s.a &&& s.c) ^^^ (s.b &&& s.c)
  ⟨word (t1 + s0 + majority), s.a, s.b, s.c, word (s.d + t1), s.e, s.f, s.g⟩

def compress (s : State) (block : Bytes) : State :=
  s.add ((constants.zip (schedule block)).foldl round s)

/-- The message with its padding, a whole number of 64-byte blocks. -/
def pad (bs : Bytes) : Bytes :=
  bs ++ 128 :: List.replicate ((119 - bs.length % 64) % 64) 0 ++ putUint 8 (8 * bs.length)

end Sha256

def sha256 (bs : Bytes) : Bytes :=
  let message := Sha256.pad bs
  let final := (List.range (message.length / 64)).foldl
    (fun s i => Sha256.compress s (slice message (64 * i) (64 * i + 64))) Sha256.initial
  final.words.flatMap (putUint 4)

@[simp] theorem sha256_length (bs : Bytes) : (sha256 bs).length = 32 := by
  simp [sha256, Sha256.State.words]

example : uint ((sha256 (ascii "abc")).take 8) = 0xba7816bf8f01cfea := by decide +kernel

end Storelib
