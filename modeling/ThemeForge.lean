import ThemeForge.Main
import ThemeForge.Proofs.Evaluation.Circuits
import ThemeForge.Proofs.Evaluation.Independence
import ThemeForge.Proofs.Evaluation.Stack
import ThemeForge.Proofs.Expression.Reading
import ThemeForge.Proofs.Folder.Ownership
import ThemeForge.Proofs.Settings.Compiled
import ThemeForge.Proofs.Settings.Layers
import ThemeForge.Proofs.Settings.RoundTrip
import ThemeForge.Proofs.Archive.Inside
import ThemeForge.Proofs.Archive.Nesting
import ThemeForge.Proofs.Build.Again
import ThemeForge.Proofs.Directives.Minifying
import ThemeForge.Proofs.Folder.Discovery
import ThemeForge.Proofs.Template.Braced
import ThemeForge.Proofs.Expression.Height
import ThemeForge.Proofs.Settings.Joined
import ThemeForge.Proofs.Directives.Grouping
import ThemeForge.Proofs.Evaluation.Exact
import ThemeForge.Proofs.Evaluation.Calls
import ThemeForge.Proofs.Evaluation.Presets
import ThemeForge.Proofs.Expression.Packing
import ThemeForge.Proofs.Evaluation.Substitution
import ThemeForge.Proofs.Settings.Expanded
import ThemeForge.Proofs.Evaluation.Placement
import ThemeForge.Proofs.Directives.Silence
import ThemeForge.Proofs.Expression.Spacing
import ThemeForge.Proofs.Folder.Arena
import ThemeForge.Proofs.Folder.Visiting
import ThemeForge.Proofs.Folder.Numbering
import ThemeForge.Proofs.Folder.Recording
