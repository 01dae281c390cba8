import ModuleLoading.Main
import ModuleLoading.Proofs.AllOrNothing
import ModuleLoading.Proofs.BlankedLayout
import ModuleLoading.Proofs.BuildFailures
import ModuleLoading.Proofs.BuildIndependence
import ModuleLoading.Proofs.CandidateLimit
import ModuleLoading.Proofs.ComposedKeys
import ModuleLoading.Proofs.Confinement
import ModuleLoading.Proofs.DeclaredLines
import ModuleLoading.Proofs.DiscoveredLinking
import ModuleLoading.Proofs.ExportLists
import ModuleLoading.Proofs.FileDirectories
import ModuleLoading.Proofs.FlatSearch
import ModuleLoading.Proofs.ImageRecognition
import ModuleLoading.Proofs.ImportKeywords
import ModuleLoading.Proofs.KeySpaces
import ModuleLoading.Proofs.KeyStability
import ModuleLoading.Proofs.KeysAsSpecifiers
import ModuleLoading.Proofs.NeighbouringDeclarations
import ModuleLoading.Proofs.PackedLinking
import ModuleLoading.Proofs.PayloadGrammar
import ModuleLoading.Proofs.SearchPathPieces
import ModuleLoading.Proofs.SharedKeys
import ModuleLoading.Proofs.Termination
import ModuleLoading.Proofs.TranslatedSpecifiers
import ModuleLoading.Proofs.Transparency
import ModuleLoading.Proofs.WalkedKeys
