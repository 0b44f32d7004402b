import ThemeForge.Text.LowerCase

/-!
# Folding cases

Two characters differ in case only when they fold to the same one. Most fold to their lower case.
The rules are those of version 16 of the Unicode standard, so letters that are younger fold to
themselves.
-/

namespace ThemeForge.Text

/-- Runs of characters that do not fold to their lower case, written as those of `lowerRuns`. -/
def foldRuns : List (Nat × Nat × Nat × Nat) :=
  [(0xB5,0xB5,1,0x3BC),(0x17F,0x17F,1,0x73),(0x345,0x345,1,0x3B9),
  (0x3C2,0x3C2,1,0x3C3),(0x3D0,0x3D0,1,0x3B2),(0x3D1,0x3D1,1,0x3B8),
  (0x3D5,0x3D5,1,0x3C6),(0x3D6,0x3D6,1,0x3C0),(0x3F0,0x3F0,1,0x3BA),
  (0x3F1,0x3F1,1,0x3C1),(0x3F5,0x3F5,1,0x3B5),(0x1C80,0x1C80,1,0x432),
  (0x1C81,0x1C81,1,0x434),(0x1C82,0x1C82,1,0x43E),(0x1C83,0x1C84,1,0x441),
  (0x1C85,0x1C85,1,0x442),(0x1C86,0x1C86,1,0x44A),(0x1C87,0x1C87,1,0x463),
  (0x1C88,0x1C88,1,0xA64B),(0x1E9B,0x1E9B,1,0x1E61),(0x1FBE,0x1FBE,1,0x3B9),
  (0x1FD3,0x1FD3,1,0x390),(0x1FE3,0x1FE3,1,0x3B0),(0xA7CE,0xA7CE,1,0xA7CE),
  (0xA7D2,0xA7D4,2,0xA7D2),(0xFB06,0xFB06,1,0xFB05),(0x16EA0,0x16EB8,1,0x16EA0)]

/-- The character that stands for all that differ from `c` in case only. -/
def foldChar (c : Char) : Char := ((runTarget? c.toNat foldRuns).map Char.ofNat).getD (lowerChar c)

def sources (n : Nat) (runs : List (Nat × Nat × Nat × Nat)) : List Nat :=
  runs.filterMap fun (first,last,step,target) =>
    if target ≤ n ∧ n - target ≤ last - first ∧ (n - target) % step = 0 then
      some (first + (n - target))
    else none

/-- The characters that differ from `c` in case only, `c` among them. -/
def caseVariants (c : Char) : List Char :=
  let folded := foldChar c
  let candidates := (sources folded.toNat (foldRuns ++ lowerRuns)).map Char.ofNat
  folded :: candidates.filter fun d => foldChar d = folded

end ThemeForge.Text
