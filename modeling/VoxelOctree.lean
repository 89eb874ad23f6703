import VoxelOctree.Flatten.PostOrder
import VoxelOctree.Main
import VoxelOctree.Octree.Loop
import VoxelOctree.Record.GpuReader
import VoxelOctree.Record.Reader
import VoxelOctree.Vox.Writer
import VoxelOctree.Proofs.Octree.Arena
import VoxelOctree.Proofs.Octree.Path
import VoxelOctree.Proofs.Octree.Order
import VoxelOctree.Proofs.Flatten.Walk
import VoxelOctree.Proofs.Flatten.Relocation
import VoxelOctree.Proofs.Flatten.Block
import VoxelOctree.Proofs.Flatten.Links
import VoxelOctree.Proofs.Convert.Compile
import VoxelOctree.Proofs.Octree.Leaves
import VoxelOctree.Proofs.Convert.Membership
import VoxelOctree.Proofs.Octree.Descent
import VoxelOctree.Proofs.Octree.Count
import VoxelOctree.Proofs.Octree.Frame
import VoxelOctree.Proofs.Octree.Attempts
import VoxelOctree.Proofs.Octree.Capacity
import VoxelOctree.Proofs.Flatten.Schedule
import VoxelOctree.Proofs.Flatten.Outline
import VoxelOctree.Proofs.Record.Gpu
import VoxelOctree.Proofs.Rounding
import VoxelOctree.Proofs.Single
import VoxelOctree.Proofs.Flatten.Geometry
import VoxelOctree.Proofs.ClosePairs
import VoxelOctree.Proofs.Single.Shortest
import VoxelOctree.Proofs.Double
import VoxelOctree.Proofs.Single.DoubleRounding
import VoxelOctree.Proofs.Json.Numeral
import VoxelOctree.Proofs.Json.Number
import VoxelOctree.Proofs.Json.Layout
import VoxelOctree.Proofs.Record.RoundTrip
import VoxelOctree.Proofs.Record.Ascii
import VoxelOctree.Proofs.Vox.RoundTrip
import VoxelOctree.Proofs.Flatten.PostOrder
import VoxelOctree.Proofs.Octree.Full
import VoxelOctree.Proofs.Json.Skip
import VoxelOctree.Proofs.Store
import VoxelOctree.Proofs.Convert.Files
import VoxelOctree.Proofs.Octree.Verdict
import VoxelOctree.Proofs.Octree.Repetition
import VoxelOctree.Proofs.Octree.LeafCount
import VoxelOctree.Proofs.Octree.Loop
import VoxelOctree.Proofs.Convert.Outcome
import VoxelOctree.Proofs.Flatten.Shape
import VoxelOctree.Proofs.Flatten.Keys
import VoxelOctree.Proofs.Single.Finite
import VoxelOctree.Proofs.Convert.Finite
import VoxelOctree.Flatten.Loop
import VoxelOctree.Proofs.Flatten.Loop
