import VoxelOctree.LittleEndian

/-!
The ChaCha block function with twelve rounds, for the first block of stream zero.
-/

namespace VoxelOctree

namespace ChaCha

abbrev State := Vector UInt32 16

def rotate (w n : UInt32) : UInt32 :=
  (w <<< n) ||| (w >>> (32 - n))

def mix (s : State) (a b c : Fin 16) (n : UInt32) : State :=
  let s := s.set a (s[a] + s[b])
  s.set c (rotate (s[c] ^^^ s[a]) n)

def quarterRound (s : State) (a b c d : Fin 16) : State :=
  mix (mix (mix (mix s a b d 16) c d b 12) a b d 8) c d b 7

def doubleRound (s : State) : State :=
  let s := quarterRound s 0 4 8 12
  let s := quarterRound s 1 5 9 13
  let s := quarterRound s 2 6 10 14
  let s := quarterRound s 3 7 11 15
  let s := quarterRound s 0 5 10 15
  let s := quarterRound s 1 6 11 12
  let s := quarterRound s 2 7 8 13
  quarterRound s 3 4 9 14

def rounds (s : State) : Nat → State
  | 0 => s
  | n + 1 => rounds (doubleRound s) n

def keyWord (key : List UInt8) (i : Nat) : UInt32 :=
  UInt32.ofNat (ofLittleEndian ((key.drop (4 * i)).take 4))

def start (key : List UInt8) : State :=
  #v[0x61707865, 0x3320646e, 0x79622d32, 0x6b206574,
    keyWord key 0, keyWord key 1, keyWord key 2, keyWord key 3,
    keyWord key 4, keyWord key 5, keyWord key 6, keyWord key 7,
    0, 0, 0, 0]

def block (key : List UInt8) : State :=
  (rounds (start key) 6).zipWith (· + ·) (start key)

end ChaCha

end VoxelOctree
