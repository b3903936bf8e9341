import Ambient.Generator
import Ambient.Proofs.AbsolutePaths
import Ambient.Proofs.ArraySuffixes
import Ambient.Proofs.Context
import Ambient.Proofs.DocumentedTypes
import Ambient.Proofs.Enumerations
import Ambient.Proofs.ExpansionDepth
import Ambient.Proofs.ExtractedDescriptors
import Ambient.Proofs.FailureLocation
import Ambient.Proofs.ImportAliases
import Ambient.Proofs.LineBreaks
import Ambient.Proofs.ListSpellings
import Ambient.Proofs.LocalClasses
import Ambient.Proofs.MarkerPrecedence
import Ambient.Proofs.Markers
import Ambient.Proofs.NamespaceDocument
import Ambient.Proofs.Nullability
import Ambient.Proofs.NullableForms
import Ambient.Proofs.PartsNormalForm
import Ambient.Proofs.PathResolution
import Ambient.Proofs.PropertyLines
import Ambient.Proofs.QueueContainers
import Ambient.Proofs.RawIdentifiers
import Ambient.Proofs.Rejection
import Ambient.Proofs.Renaming
import Ambient.Proofs.ReplacedNames
import Ambient.Proofs.Scoping
import Ambient.Proofs.SeedOrder
import Ambient.Proofs.Seeding
import Ambient.Proofs.SourceDirectory
import Ambient.Proofs.TemplateLiterals
import Ambient.Proofs.Termination
import Ambient.Proofs.UnionAlternatives
import Ambient.Proofs.WordSubstitution
