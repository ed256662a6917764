import Taskowl.Py.Digits

/-!
# SHA-256

`hashlib.sha256(s.encode("utf-8")).hexdigest()`, on words as naturals below
`2 ^ 32` (FIPS 180-4).
-/

namespace Taskowl.Py.Sha

def word (n : Nat) : Nat := n % 2 ^ 32

def rotr (n x : Nat) : Nat := word (x >>> n ||| x <<< (32 - n))

def initial : List Nat :=
  [0x6a09e667, 0xbb67ae85, 0x3c6ef372, 0xa54ff53a, 0x510e527f, 0x9b05688c, 0x1f83d9ab,
    0x5be0cd19]

def roundConstants : List Nat :=
  [0x428a2f98, 0x71374491, 0xb5c0fbcf, 0xe9b5dba5, 0x3956c25b, 0x59f111f1, 0x923f82a4,
    0xab1c5ed5, 0xd807aa98, 0x12835b01, 0x243185be, 0x550c7dc3, 0x72be5d74, 0x80deb1fe,
    0x9bdc06a7, 0xc19bf174, 0xe49b69c1, 0xefbe4786, 0x0fc19dc6, 0x240ca1cc, 0x2de92c6f,
    0x4a7484aa, 0x5cb0a9dc, 0x76f988da, 0x983e5152, 0xa831c66d, 0xb00327c8, 0xbf597fc7,
    0xc6e00bf3, 0xd5a79147, 0x06ca6351, 0x14292967, 0x27b70a85, 0x2e1b2138, 0x4d2c6dfc,
    0x53380d13, 0x650a7354, 0x766a0abb, 0x81c2c92e, 0x92722c85, 0xa2bfe8a1, 0xa81a664b,
    0xc24b8b70, 0xc76c51a3, 0xd192e819, 0xd6990624, 0xf40e3585, 0x106aa070, 0x19a4c116,
    0x1e376c08, 0x2748774c, 0x34b0bcb5, 0x391c0cb3, 0x4ed8aa4a, 0x5b9cca4f, 0x682e6ff3,
    0x748f82ee, 0x78a5636f, 0x84c87814, 0x8cc70208, 0x90befffa, 0xa4506ceb, 0xbef9a3f7,
    0xc67178f2]

/-- The next word of a message schedule whose latest word comes first. -/
def nextWord (w : List Nat) : Nat :=
  let s0 := w.getD 14 0
  let s1 := w.getD 1 0
  word ((rotr 17 s1 ^^^ rotr 19 s1 ^^^ s1 >>> 10) + w.getD 6 0 +
    (rotr 7 s0 ^^^ rotr 18 s0 ^^^ s0 >>> 3) + w.getD 15 0)

/-- The schedule of a block of sixteen words. -/
def schedule (block : List Nat) : List Nat :=
  ((List.range 48).foldl (fun w _ => nextWord w :: w) block.reverse).reverse

structure Vars where
  a : Nat
  b : Nat
  c : Nat
  d : Nat
  e : Nat
  f : Nat
  g : Nat
  h : Nat

def Vars.ofList (w : List Nat) : Vars :=
  ⟨w.getD 0 0, w.getD 1 0, w.getD 2 0, w.getD 3 0, w.getD 4 0, w.getD 5 0, w.getD 6 0, w.getD 7 0⟩

def Vars.toList (v : Vars) : List Nat := [v.a, v.b, v.c, v.d, v.e, v.f, v.g, v.h]

/-- A round, with its constant and its word of the schedule. -/
def Vars.round (v : Vars) (kw : Nat × Nat) : Vars :=
  let ch := (v.e &&& v.f) ^^^ ((2 ^ 32 - 1 - v.e) &&& v.g)
  let t1 := v.h + (rotr 6 v.e ^^^ rotr 11 v.e ^^^ rotr 25 v.e) + ch + kw.1 + kw.2
  let maj := (v.a &&& v.b) ^^^ (v.a &&& v.c) ^^^ (v.b &&& v.c)
  let t2 := (rotr 2 v.a ^^^ rotr 13 v.a ^^^ rotr 22 v.a) + maj
  ⟨word (t1 + t2), v.a, v.b, v.c, word (v.d + t1), v.e, v.f, v.g⟩

/-- One block into the hash. -/
def compress (hash block : List Nat) : List Nat :=
  let v := (roundConstants.zip (schedule block)).foldl Vars.round (Vars.ofList hash)
  List.zipWith (fun x y => word (x + y)) hash v.toList

/-- The padded message, in bytes: a one bit, zeros, and the length in bits. -/
def padded (bytes : List Nat) : List Nat :=
  let zeros := (55 + 64 - bytes.length % 64) % 64
  let bits := 8 * bytes.length
  bytes ++ 128 :: List.replicate zeros 0 ++
    (List.range 8).map fun i => bits >>> (8 * (7 - i)) % 256

def groups {α : Type} (n : Nat) : Nat → List α → List (List α)
  | 0, _ => []
  | count + 1, xs => xs.take n :: groups n count (xs.drop n)

def bigEndian (bytes : List Nat) : Nat := bytes.foldl (fun acc d => acc * 256 + d) 0

/-- `hashlib.sha256(s.encode("utf-8")).hexdigest()`. -/
def sha256hex (s : String) : String :=
  let bytes := padded ((s.toList.flatMap String.utf8EncodeChar).map UInt8.toNat)
  let blocks := (groups 64 (bytes.length / 64) bytes).map fun block =>
    (groups 4 16 block).map bigEndian
  String.ofList ((blocks.foldl compress initial).flatMap (pad 16 8))

end Taskowl.Py.Sha
