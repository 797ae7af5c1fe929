import SeedSearch.Log.Draft
import SeedSearch.Main
import SeedSearch.Proofs.Ambiguity
import SeedSearch.Proofs.Batch
import SeedSearch.Proofs.Blocks
import SeedSearch.Proofs.CatalogTree
import SeedSearch.Proofs.Description
import SeedSearch.Proofs.EarlyExit
import SeedSearch.Proofs.ExitCodes
import SeedSearch.Proofs.FaultPlaces
import SeedSearch.Proofs.InputFaults
import SeedSearch.Proofs.MatchListing
import SeedSearch.Proofs.Precedence
import SeedSearch.Proofs.Reconfiguration
import SeedSearch.Proofs.Regroup
import SeedSearch.Proofs.ReportIntegers
import SeedSearch.Proofs.SeedVerdict
import SeedSearch.Proofs.Signature
import SeedSearch.Proofs.Splits
import SeedSearch.Proofs.StoredText
import SeedSearch.Proofs.Strictness
import SeedSearch.Proofs.Truncation
import SeedSearch.Proofs.WrittenCatalog
