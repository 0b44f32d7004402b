/-!
# Lines of a text

A line ends at a line feed, and a carriage return right before that belongs to the line's end. The
text after the last line feed is a line unless it is empty, and keeps its carriage returns.
-/

namespace ThemeForge.Text

def lines : List Char → List (List Char)
  | [] => []
  | c :: cs =>
    if c = '\n' then [] :: lines cs
    else if c = '\r' ∧ cs.head? = some '\n' then lines cs
    else
      match lines cs with
      | [] => [[c]]
      | line :: rest => (c :: line) :: rest

def unlines (ls : List (List Char)) : List Char := List.intercalate ['\n'] ls

@[simp] theorem lines_nil : lines [] = [] := rfl

@[simp] theorem lines_lineFeed (cs : List Char) : lines ('\n' :: cs) = [] :: lines cs := by
  simp [lines]

theorem lineFeed_not_mem_of_mem_lines {cs line : List Char} (member : line ∈ lines cs) :
    '\n' ∉ line := by
  induction cs generalizing line with
  | nil => simp at member
  | cons c cs ih =>
    rw [lines] at member
    split at member
    · rcases List.mem_cons.1 member with rfl | later
      · simp
      · exact ih later
    · next notFeed =>
      split at member
      · exact ih member
      · split at member
        · next none =>
          rw [List.mem_singleton.1 member]
          simpa using fun h => notFeed h.symm
        · next first rest found =>
          rcases List.mem_cons.1 member with rfl | later
          · simp only [List.mem_cons, not_or]
            exact ⟨fun h => notFeed h.symm,ih (by simp [found])⟩
          · exact ih (by simp [found, later])

end ThemeForge.Text
