namespace VoxelOctree

structure Vec3 (α : Type) where
  x : α
  y : α
  z : α
  deriving DecidableEq, Repr

namespace Vec3

def map {α β : Type} (f : α → β) (v : Vec3 α) : Vec3 β :=
  ⟨f v.x, f v.y, f v.z⟩

def zipWith {α β γ : Type} (f : α → β → γ) (v : Vec3 α) (w : Vec3 β) : Vec3 γ :=
  ⟨f v.x w.x, f v.y w.y, f v.z w.z⟩

def fill {α : Type} (a : α) : Vec3 α :=
  ⟨a, a, a⟩

def toList {α : Type} (v : Vec3 α) : List α :=
  [v.x, v.y, v.z]

def sequence {α : Type} (v : Vec3 (Option α)) : Option (Vec3 α) :=
  match v with
  | ⟨some x, some y, some z⟩ => some ⟨x, y, z⟩
  | _ => none

@[simp] theorem toList_map {α β : Type} (f : α → β) (v : Vec3 α) :
    (v.map f).toList = v.toList.map f := rfl

theorem sequence_eq_some_iff {α : Type} (v : Vec3 (Option α)) (w : Vec3 α) :
    v.sequence = some w ↔ v = w.map some := by
  obtain ⟨x, y, z⟩ := v
  cases x <;> cases y <;> cases z <;> simp [sequence, map, eq_comm]
  exact ⟨fun h => by simp [h], fun h => by cases w; simp_all⟩

end Vec3

abbrev Point := Vec3 UInt32

end VoxelOctree
