import CavityRepair.Cavity.Carve
import CavityRepair.Cavity.Rescue
import CavityRepair.Cavity.Reshape
import CavityRepair.Mesh.Constrain
import CavityRepair.Mesh.Lattice
import CavityRepair.Mesh.Record
import CavityRepair.Mesh.Validate
import CavityRepair.Proofs.Cavity.EdgeSurvival
import CavityRepair.Proofs.Cavity.Insertion
import CavityRepair.Proofs.Geometry.Determinant
import CavityRepair.Proofs.Mesh.Validation
import CavityRepair.Proofs.Mesh.Hull
import CavityRepair.Proofs.Mesh.Facing
import CavityRepair.Proofs.Cavity.Holder
import CavityRepair.Proofs.Cavity.Refusals
import CavityRepair.Proofs.Cavity.Volume
import CavityRepair.Proofs.Mesh.Manifold
import CavityRepair.Proofs.Mesh.Acceptance
import CavityRepair.Proofs.Mesh.Cycles
import CavityRepair.Proofs.Cavity.Swallowed
import CavityRepair.Proofs.Cavity.Ghosts
import CavityRepair.Proofs.Mesh.Opposite
import CavityRepair.Proofs.Cavity.Surface
import CavityRepair.Proofs.Cavity.Hopeless
import CavityRepair.Proofs.Mesh.Constraints
import CavityRepair.Proofs.Cavity.ConstraintRuns
import CavityRepair.Proofs.Cavity.PathIndependence
import CavityRepair.Proofs.Cavity.Unchecked
import CavityRepair.Proofs.Cavity.InBounds
import CavityRepair.Proofs.Lattice.Conforming
import CavityRepair.Proofs.Cavity.Loaded
import CavityRepair.Proofs.Mesh.WellLinked
import CavityRepair.Proofs.Mesh.Record
import CavityRepair.Proofs.Geometry.Barycentric
import CavityRepair.Proofs.Mesh.Folds
import CavityRepair.Proofs.Cavity.Colors
import CavityRepair.Proofs.Cavity.InPlace
import CavityRepair.Proofs.Mesh.Containment
import CavityRepair.Proofs.Cavity.Removal
import CavityRepair.Proofs.Cavity.Rounds
import CavityRepair.Proofs.Cavity.Farthest
import CavityRepair.Proofs.Cavity.RingTally
