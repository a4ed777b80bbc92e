import Nomenclature.Proofs.Compositionality
import Nomenclature.Proofs.ConfiguredScalars
import Nomenclature.Proofs.ConstantCase
import Nomenclature.Proofs.DataResolution
import Nomenclature.Proofs.Extras
import Nomenclature.Proofs.Fingerprint
import Nomenclature.Proofs.Flattening
import Nomenclature.Proofs.FragmentNames
import Nomenclature.Proofs.OrderIndependence
import Nomenclature.Proofs.ReorderedReaders
import Nomenclature.Proofs.Reordering
import Nomenclature.Proofs.Usability
import Nomenclature.Proofs.WordStyles
import Nomenclature.Sorting.Lemmas
import Nomenclature.Workspace
import Nomenclature.Proofs.Segmentation
import Nomenclature.Proofs.Identifiers
import Nomenclature.Proofs.UnderscorePolicy
import Nomenclature.Proofs.SuffixedNames
import Nomenclature.Proofs.StrategySpellings
import Nomenclature.Proofs.Freezing
import Nomenclature.Proofs.NonMappings
import Nomenclature.Proofs.ScalarOverlay
import Nomenclature.Proofs.NestedImports
import Nomenclature.Proofs.ExternalFragments
import Nomenclature.Proofs.NullResolution
import Nomenclature.Proofs.ConventionForms
import Nomenclature.Proofs.MergedLayers
import Nomenclature.Proofs.PreservedUnderscores
