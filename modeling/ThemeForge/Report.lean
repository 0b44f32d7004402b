import ThemeForge.Plan
import ThemeForge.Text.Json

/-!
# Reports on plans

What would be merged and packed, as JSON and as lines of text.
-/

namespace ThemeForge

open Text (Json)

def FragmentFile.report (fragment : FragmentFile) : Json :=
  .object [("path",.text fragment.path),("kind",.text fragment.kind.name),
    ("order",.number fragment.order)]

def OwnedFile.report (file : OwnedFile) : Json :=
  .object [("source_path",.text file.source),("relative_path",.text file.relative)]

def Resource.report (resource : Resource) : Json :=
  .object [("source_path",.text resource.source),("archive_path",.text resource.member)]

namespace Plan

def below (plan : Plan) (path : String) : String := Path.relative plan.tree.root path

def folderBelow (plan : Plan) (folder : Folder) : String :=
  plan.below (plan.tree.folderPath folder)

def folderReport (plan : Plan) (folder : Folder) : Json :=
  .object [("path",.text (plan.folderBelow folder)),
    ("fragments",.array (folder.fragments.map .text)),
    ("owned_files",.array ((plan.tree.ownedFiles folder).map OwnedFile.report))]

def report (plan : Plan) (name : String) : Json :=
  .object [("root",.text plan.tree.root),("theme_name",.text name),
    ("data_directories",.array (plan.tree.dataFolders.map plan.folderReport)),
    ("line_fragments",.array (plan.directives.map FragmentFile.report)),
    ("section_fragments",.array (plan.settings.map FragmentFile.report)),
    ("resources",.array (plan.resources.entries.map Resource.report)),
    ("skipped",.array (plan.tree.orphans.map fun path => .text (plan.below path)))]

def orNone (ls : List String) : List String := if ls.isEmpty then ["  (none)"] else ls

def folderLines (plan : Plan) : List String :=
  plan.tree.dataFolders.flatMap fun folder =>
    ("  " ++ plan.folderBelow folder) :: folder.fragments.map fun name => "    fragment " ++ name

def fragmentLines (plan : Plan) (fragments : List FragmentFile) : List String :=
  orNone (fragments.zipIdx.map fun (fragment,i) =>
    "  " ++ toString (i + 1) ++ ". " ++ plan.below fragment.path)

def resourceLines (plan : Plan) : List String :=
  orNone (plan.resources.entries.map fun resource =>
    "  " ++ resource.member ++ " <- " ++ plan.below resource.source)

def skippedLines (plan : Plan) : List String :=
  if plan.tree.orphans.isEmpty then []
  else "" :: "Skipped (no data directory):" :: plan.tree.orphans.map fun path =>
    "  " ++ plan.below path

def display (plan : Plan) : List String :=
  "Data directories:" :: plan.folderLines
    ++ "" :: "Line fragments:" :: plan.fragmentLines plan.directives
    ++ "" :: "Section fragments:" :: plan.fragmentLines plan.settings
    ++ "" :: ("Resources: (" ++ toString plan.resources.size ++ ")") :: plan.resourceLines
    ++ plan.skippedLines

end Plan

end ThemeForge
