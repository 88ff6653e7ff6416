import GoApi.Command.Run
import GoApi.Main
import GoApi.Proofs.Accounting
import GoApi.Proofs.ChangedPackages
import GoApi.Proofs.Composition
import GoApi.Proofs.Insertion
import GoApi.Proofs.Leniency
import GoApi.Proofs.Mirror
import GoApi.Proofs.Surface.FileOrder
import GoApi.Proofs.Surface.Flattening
import GoApi.Proofs.Surface.Formed
import GoApi.Proofs.Ty.Cosmetic
import GoApi.Proofs.Ty.Faithful
import GoApi.Proofs.Discovery.Pattern
import GoApi.Proofs.Discovery.Walk
import GoApi.Proofs.Discovery.Agreement
import GoApi.Proofs.Totals
import GoApi.Proofs.Source.Token
import GoApi.Proofs.Source.Types
import GoApi.Proofs.Verdict
import GoApi.Proofs.Source.Exprs
import GoApi.Proofs.Source.Files
import GoApi.Proofs.Surface.Roots
import GoApi.Proofs.KindChange
import GoApi.Proofs.Build.Clause
import GoApi.Proofs.Build.Legacy
import GoApi.Proofs.Build.Tags
import GoApi.Proofs.Surface.Stability
import GoApi.Proofs.Ty.FreeRenaming
import GoApi.Proofs.Discovery.Checkout
import GoApi.Proofs.Surface.Renaming
import GoApi.Proofs.Build.Cursor
import GoApi.Proofs.Surface.Grouping
import GoApi.Proofs.Keys
import GoApi.Proofs.Source.Names
import GoApi.Proofs.Surface.Declared
