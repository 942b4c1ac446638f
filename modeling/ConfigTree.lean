import ConfigTree.Session.Step
import ConfigTree.Proofs.Effect
import ConfigTree.Proofs.Store
import ConfigTree.Proofs.Tree
import ConfigTree.Proofs.Paths
import ConfigTree.Proofs.NodeReplacement
import ConfigTree.Proofs.Copy
import ConfigTree.Proofs.ObjectAccounts
import ConfigTree.Proofs.Coherence
import ConfigTree.Proofs.ObjectCopy
import ConfigTree.Proofs.Clone
import ConfigTree.Proofs.RequestLogic
import ConfigTree.Proofs.Registration
import ConfigTree.Proofs.SessionSoundness
import ConfigTree.Proofs.SoundSteps
import ConfigTree.Proofs.Ownership
import ConfigTree.Proofs.Addressing
import ConfigTree.Proofs.Links
import ConfigTree.Proofs.SlotReach
import ConfigTree.Proofs.Writes
import ConfigTree.Proofs.Independence
import ConfigTree.Proofs.TreeNodes
import ConfigTree.Proofs.Assignment
import ConfigTree.Proofs.ValueOperations
import ConfigTree.Proofs.CloneFaithfulness
import ConfigTree.Proofs.Bindings
import ConfigTree.Proofs.Widening
import ConfigTree.Proofs.Rounding
import ConfigTree.Proofs.Conversion
import ConfigTree.Proofs.LinkAccess
import ConfigTree.Proofs.Scalars
import ConfigTree.Proofs.Shape
import ConfigTree.Proofs.ObjectShape
import ConfigTree.Proofs.RequestLookups
import ConfigTree.Proofs.ScopeOffers
import ConfigTree.Proofs.Atomicity
import ConfigTree.Proofs.TreeNames
import ConfigTree.Proofs.SlotChanges
import ConfigTree.Proofs.Detachment
import ConfigTree.Proofs.ScopeNames
import ConfigTree.Proofs.RegistrationOrder
import ConfigTree.Proofs.OrderedMap
import ConfigTree.Proofs.PoisonedLocks
import ConfigTree.Proofs.NativeCopy
import ConfigTree.Proofs.CloneFailure
import ConfigTree.Proofs.CopyWrites
import ConfigTree.Proofs.CopyCourse
import ConfigTree.Proofs.CopyIdempotence
import ConfigTree.Proofs.AssignmentCommutation
import ConfigTree.Proofs.ScopeCopy
import ConfigTree.Proofs.RationalRounding
import ConfigTree.Proofs.Integers
import ConfigTree.Proofs.Ranges
import ConfigTree.Proofs.Decimals
import ConfigTree.Proofs.Texts
import ConfigTree.Proofs.Postorder
import ConfigTree.Proofs.DroppingSteps
import ConfigTree.Proofs.Teardown
import ConfigTree.Proofs.Lexical
import ConfigTree.Proofs.Literals
import ConfigTree.Proofs.Settings
import ConfigTree.Proofs.Warnings
import ConfigTree.Proofs.PartialCopies
import ConfigTree.Proofs.RequestWarnings
import ConfigTree.Proofs.Logging
