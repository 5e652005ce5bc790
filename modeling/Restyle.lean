import Restyle.Generation
import Restyle.LogFilter
import Restyle.Proofs.Change.Treelike
import Restyle.Proofs.Transform.FanOut
import Restyle.Proofs.Transform.Imports
import Restyle.Proofs.Transform.Revisit
import Restyle.Proofs.Transform.Untouched
import Restyle.Registry
import Restyle.Search.VariantGroup
import Restyle.Settings.Layers
import Restyle.Transform.Batch
import Restyle.Proofs.Transform.Report
import Restyle.Proofs.Change.Built
import Restyle.Proofs.Json.Printing
import Restyle.Proofs.Json.Numbers
import Restyle.Proofs.Json.Decoding
import Restyle.Proofs.Text.Dictionary
import Restyle.Proofs.Json.Records
import Restyle.Proofs.Bundle.Accepted
import Restyle.Proofs.Bundle.RoundTrip
import Restyle.Proofs.Number.Rounding
import Restyle.Proofs.Number.ReadBack
import Restyle.Proofs.Json.ReadBack
import Restyle.Proofs.Theme.Printed
import Restyle.Proofs.Theme.RoundTrip
import Restyle.Proofs.Registry.RoundTrip
import Restyle.Proofs.Transform.Assigned
import Restyle.Proofs.Transform.Commented
import Restyle.Proofs.Transform.Parted
import Restyle.Proofs.Change.WrapperName
import Restyle.Proofs.Settings.ImportLine
import Restyle.Proofs.Change.ClassWords
import Restyle.Proofs.Search.Wrapping
import Restyle.Proofs.Change.Commuting
import Restyle.Proofs.Theme.Extremes
import Restyle.Proofs.Tree.AttributeRoles
import Restyle.Proofs.Transform.Variants
import Restyle.Proofs.Number.Nearest
import Restyle.Proofs.Theme.Grammar
import Restyle.Proofs.Registry.ThemeItem
import Restyle.Proofs.Settings.Resolution
import Restyle.Proofs.Theme.SheetReading
import Restyle.Proofs.Text.Slug
import Restyle.Proofs.Bundle.Blame
import Restyle.Proofs.Bundle.Animations
import Restyle.Proofs.Bundle.Stylesheet
import Restyle.Proofs.Syntax.Walk
