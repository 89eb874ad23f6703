import VoxelOctree.LittleEndian

namespace VoxelOctree

namespace Utf8

def tails (b : Nat) : Option (List (Nat × Nat)) :=
  let any := (0x80, 0xBF)
  if b < 0x80 then some []
  else if b < 0xC2 then none
  else if b < 0xE0 then some [any]
  else if b = 0xE0 then some [(0xA0, 0xBF), any]
  else if b = 0xED then some [(0x80, 0x9F), any]
  else if b < 0xF0 then some [any, any]
  else if b = 0xF0 then some [(0x90, 0xBF), any, any]
  else if b < 0xF4 then some [any, any, any]
  else if b = 0xF4 then some [(0x80, 0x8F), any, any]
  else none

def matching : List (Nat × Nat) → List UInt8 → Nat
  | (low, high) :: bounds, b :: rest =>
    if low ≤ b.toNat ∧ b.toNat ≤ high then matching bounds rest + 1 else 0
  | _, _ => 0

def charOf (b : UInt8) (following : List UInt8) : Char :=
  let high := match following.length with
    | 0 => b.toNat
    | n => b.toNat % 2 ^ (6 - n)
  Char.ofNat (following.foldl (fun n c => n * 64 + c.toNat % 64) high)

def first (b : UInt8) (rest : List UInt8) : Option Char × Nat :=
  match tails b.toNat with
  | none => (none, 0)
  | some bounds =>
    let n := matching bounds rest
    if n = bounds.length then (some (charOf b (rest.take n)), n) else (none, n)

def pieces : List UInt8 → List (Option Char)
  | [] => []
  | b :: rest => (first b rest).1 :: pieces (rest.drop (first b rest).2)
termination_by bs => bs.length
decreasing_by
  simp only [List.length_drop, List.length_cons]
  omega

def isValid (bs : List UInt8) : Bool :=
  (pieces bs).all Option.isSome

def lossy (bs : List UInt8) : List Char :=
  (pieces bs).map fun c => c.getD '\uFFFD'

def encode (s : List Char) : List UInt8 :=
  s.flatMap String.utf8EncodeChar

end Utf8

end VoxelOctree
