import ThemeForge.Resources

/-!
# Plans

What a theme is made from: the fragments of its folder in the order in which they are merged, and
its resources. No fragment has been read yet.
-/

namespace ThemeForge

/-- The sources of a theme. -/
structure Plan where
  tree : SourceTree
  directives : List FragmentFile
  settings : List FragmentFile
  resources : Resources

def SourceTree.discover (fs : FileSystem) (root : FilePath) (includes : String → Bool) :
    Except Failure SourceTree := do
  let tree ← SourceTree.scan fs root includes
  tree.checkOwnership
  return tree

namespace Plan

def ofTree (name : String) (tree : SourceTree) : Except Failure Plan := do
  let resources ← Resources.ofTree name tree
  return ⟨tree,tree.fragments .directives,tree.fragments .settings,resources⟩

def discover (fs : FileSystem) (root : FilePath) (name : String) (includes : String → Bool) :
    Except Failure Plan := do
  ofTree name (← SourceTree.discover fs root includes)

end Plan

end ThemeForge
