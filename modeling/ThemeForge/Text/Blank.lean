import ThemeForge.Text.Ranges

/-!
# Blank characters

The characters with the Unicode property White_Space, and the operations that they define: trimming
a text and cutting it into words.
-/

namespace ThemeForge.Text

/-- The property White_Space. The separators 0x1C to 0x1F do not have it. -/
def blankRanges : List (Nat × Nat) :=
  [(0x9,0xD),(0x20,0x20),(0x85,0x85),(0xA0,0xA0),(0x1680,0x1680),(0x2000,0x200A),
  (0x2028,0x2029),(0x202F,0x202F),(0x205F,0x205F),(0x3000,0x3000)]

def isBlank (c : Char) : Bool := inRanges c.toNat blankRanges

def trimStart (cs : List Char) : List Char := cs.dropWhile isBlank

def dropEndWhile (p : Char → Bool) : List Char → List Char
  | [] => []
  | c :: cs =>
    match dropEndWhile p cs with
    | [] => if p c then [] else [c]
    | rest => c :: rest

def trimEnd (cs : List Char) : List Char := dropEndWhile isBlank cs

def trim (cs : List Char) : List Char := trimEnd (trimStart cs)

def allBlank (cs : List Char) : Bool := cs.all isBlank

def words : List Char → List (List Char)
  | [] => []
  | c :: cs =>
    if isBlank c then words cs
    else if cs.head?.all isBlank then [c] :: words cs
    else
      match words cs with
      | [] => [[c]]
      | word :: rest => (c :: word) :: rest

@[simp] theorem dropEndWhile_nil (p : Char → Bool) : dropEndWhile p [] = [] := rfl

/-- What is cut off at the end is exactly a run of characters that `p` holds of. -/
theorem exists_dropEndWhile_append (p : Char → Bool) (cs : List Char) :
    ∃ cut, cs = dropEndWhile p cs ++ cut ∧ ∀ c ∈ cut, p c = true := by
  induction cs with
  | nil => exact ⟨[],by simp⟩
  | cons c cs ih =>
    obtain ⟨cut,split,all⟩ := ih
    cases kept : dropEndWhile p cs with
    | nil =>
      by_cases holds : p c
      · refine ⟨c :: cut,?_,by simpa [holds] using all⟩
        simp only [dropEndWhile, kept, holds, if_true, List.nil_append, List.cons.injEq, true_and]
        simpa [kept] using split
      · refine ⟨cut,?_,all⟩
        simp only [dropEndWhile, kept, holds]
        simpa [kept] using split
    | cons d ds =>
      refine ⟨cut,?_,all⟩
      simp only [dropEndWhile, kept, List.cons_append, List.cons.injEq, true_and]
      simpa [kept] using split

end ThemeForge.Text
