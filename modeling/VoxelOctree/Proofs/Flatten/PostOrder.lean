import VoxelOctree.Proofs.Flatten.Loop
import VoxelOctree.Proofs.Flatten.Relocation

namespace VoxelOctree

namespace Flatten

variable {t : Octree} (resolve : Resolver)

end Flatten

end VoxelOctree
