import DesignTokens.Main
import DesignTokens.Matrix.Data
import DesignTokens.Proofs.Matrix.Complete
import DesignTokens.Proofs.Utility.LastToken
import DesignTokens.Proofs.Utility.States
import DesignTokens.Registry.Data
import DesignTokens.Utility.Data
import DesignTokens.Proofs.Css.Declarations
import DesignTokens.Proofs.Css.Layers
import DesignTokens.Proofs.Theme.Expected
import DesignTokens.Proofs.Theme.Lookup
import DesignTokens.Proofs.Theme.Scales
import DesignTokens.Proofs.Theme.Overrides
import DesignTokens.Proofs.Theme.RoundTrip
import DesignTokens.Proofs.File.Saved
import DesignTokens.Proofs.Decimal.Packed
import DesignTokens.Proofs.Decimal.Nearest
import DesignTokens.Proofs.Decimal.Scientific
import DesignTokens.Proofs.Decimal.Places
import DesignTokens.Proofs.Decimal.ShortestDigits
import DesignTokens.Proofs.Decimal.Numeral
import DesignTokens.Proofs.Decimal.Written
import DesignTokens.Proofs.Json.Numbers
import DesignTokens.Proofs.Json.Strings
import DesignTokens.Proofs.Json.RoundTrip
import DesignTokens.Proofs.Theme.Regular
import DesignTokens.Proofs.Theme.Artifact
import DesignTokens.Proofs.Decimal.Compare
import DesignTokens.Proofs.Theme.Same
import DesignTokens.Proofs.Drift.Staleness
import DesignTokens.Proofs.Matrix.Checked
import DesignTokens.Proofs.Matrix.Tracks
import DesignTokens.Proofs.Matrix.Filled
import DesignTokens.Proofs.Matrix.Sound
import DesignTokens.Proofs.Scene.Drawn
import DesignTokens.Proofs.Scene.Shown
import DesignTokens.Proofs.Scene.Document
import DesignTokens.Proofs.Scene.Sections
import DesignTokens.Proofs.Scene.Emitted
import DesignTokens.Proofs.Matrix.Inside
import DesignTokens.Proofs.Scene.Arranged
import DesignTokens.Proofs.Scene.Copies
import DesignTokens.Proofs.Drift.AnyOrder
import DesignTokens.Proofs.Registry.Declared
import DesignTokens.Proofs.Utility.Unbroken
import DesignTokens.Proofs.Drift.Drifted
import DesignTokens.Proofs.Project.LastWrites
import DesignTokens.Proofs.Opacity.ColorUses
import DesignTokens.Proofs.Matrix.Styled
import DesignTokens.Proofs.Drift.Governed
import DesignTokens.Proofs.Drift.MissingImport
import DesignTokens.Proofs.Scene.Histories
import DesignTokens.Proofs.Scene.Occurrences
import DesignTokens.Proofs.Theme.Restored
import DesignTokens.Proofs.Drift.Properties
import DesignTokens.Proofs.Utility.Marks
import DesignTokens.Proofs.Utility.Levels
import DesignTokens.Proofs.Config.Reloaded
import DesignTokens.Proofs.Scene.Strokes
import DesignTokens.Proofs.Decimal.Signs
import DesignTokens.Proofs.Matrix.Extents
import DesignTokens.Proofs.Drift.AssignedNumber
import DesignTokens.Proofs.Utility.NameOrder
import DesignTokens.Proofs.Drift.Imported
import DesignTokens.Proofs.Drift.Redeclared
import DesignTokens.Proofs.Opacity.Merged
import DesignTokens.Proofs.Style.Serialized
import DesignTokens.Proofs.Registry.Defaults
import DesignTokens.Proofs.Matrix.Named
