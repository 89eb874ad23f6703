import VoxelOctree.Error
import VoxelOctree.Single

namespace VoxelOctree

inductive Side where
  | below
  | above
  deriving DecidableEq, Repr

namespace Side

def of (coordinate boundary : Nat) : Option Side :=
  if coordinate < boundary then some below
  else if boundary < coordinate then some above
  else none

def apply : Side → Single → Single
  | above, a => a
  | below, a => -a

def sign (s : Side) : Single :=
  s.apply Single.one

theorem of_eq_none_iff (c b : Nat) : of c b = none ↔ c = b := by
  grind [of]

theorem of_eq_below_iff (c b : Nat) : of c b = some below ↔ c < b := by
  grind [of]

theorem of_eq_above_iff (c b : Nat) : of c b = some above ↔ b < c := by
  grind [of]

end Side

abbrev Octant := Fin 8

namespace Octant

def sides : Octant → Vec3 Side
  | 0 => ⟨.above, .above, .above⟩
  | 1 => ⟨.below, .below, .below⟩
  | 2 => ⟨.above, .below, .below⟩
  | 3 => ⟨.above, .above, .below⟩
  | 4 => ⟨.below, .above, .below⟩
  | 5 => ⟨.above, .below, .above⟩
  | 6 => ⟨.below, .below, .above⟩
  | 7 => ⟨.below, .above, .above⟩

def ofSides : Vec3 Side → Octant
  | ⟨.above, .above, .above⟩ => 0
  | ⟨.below, .below, .below⟩ => 1
  | ⟨.above, .below, .below⟩ => 2
  | ⟨.above, .above, .below⟩ => 3
  | ⟨.below, .above, .below⟩ => 4
  | ⟨.above, .below, .above⟩ => 5
  | ⟨.below, .below, .above⟩ => 6
  | ⟨.below, .above, .above⟩ => 7

def ofPoint (p : Point) (boundary : Nat) : Option Octant :=
  ((p.map fun c => Side.of c.toNat boundary).sequence).map ofSides

def offset (k : Octant) (size : Nat) : Vec3 Single :=
  k.sides.map fun s => s.apply (Single.ofNat size)

def offsetAt (slot size : Nat) : Except Fault (Vec3 Single) :=
  if h : slot < 8 then .ok (offset ⟨slot, h⟩ size) else .error (.indexOutOfBounds 8 slot)

def all : List Octant :=
  [0, 1, 2, 3, 4, 5, 6, 7]

@[simp] theorem ofSides_sides (k : Octant) : ofSides k.sides = k := by
  revert k
  decide

@[simp] theorem sides_ofSides (s : Vec3 Side) : (ofSides s).sides = s := by
  obtain ⟨x, y, z⟩ := s
  cases x <;> cases y <;> cases z <;> rfl

end Octant

end VoxelOctree
