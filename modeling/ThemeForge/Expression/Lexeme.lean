import ThemeForge.Expression.Fault
import ThemeForge.Number.Decimal
import ThemeForge.Number.Word
import ThemeForge.Text.Blank
import ThemeForge.Text.Letter

/-!
# Cutting an expression into tokens

Blanks separate tokens and mean nothing else. A number or a name is the longest run of its
characters, and a text reaches to the quote that opened it.
-/

namespace ThemeForge

namespace Token

def byteLength : List Char → Nat
  | [] => 0
  | c :: cs => c.utf8Size + byteLength cs

def single? (c : Char) : Option Token :=
  match c with
  | '+' => some .plus
  | '-' => some .minus
  | '*' => some .star
  | '/' => some .slash
  | '(' => some .leftParen
  | ')' => some .rightParen
  | ',' => some .comma
  | '=' => some .assign
  | _ => none

def unescape (c : Char) : Char :=
  if c = 'n' then '\n' else if c = 't' then '\t' else c

/-- The text up to the closing quote and what follows it, or `none` if there is no such quote. -/
def quotedText? (quote : Char) : List Char → Option (List Char × List Char)
  | [] => none
  | c :: cs =>
    if c = quote then some ([],cs)
    else if c = '\\' then
      match cs with
      | [] => none
      | d :: rest => (quotedText? quote rest).map fun (body,rest) => (unescape d :: body,rest)
    else (quotedText? quote cs).map fun (body,rest) => (c :: body,rest)

def inNumber (c : Char) : Bool := c.isAlphanum || c == '.' || c == '_'

def startsName (c : Char) : Bool := Text.isLetter c || c == '_'

def inName (c : Char) : Bool := Text.isLetterOrNumber c || c == '_' || c == '.'

/-- Whether a run of number characters waits for a signed exponent: it is decimal and ends in the
letter that starts an exponent. -/
def awaitsExponent (run : List Char) : Bool :=
  run.all (fun c => c.isDigit || c == '.' || c == 'e' || c == 'E')
    && run.getLast?.any (fun c => c == 'e' || c == 'E')

def numberRun (cs : List Char) : List Char × List Char :=
  match cs.dropWhile inNumber with
  | sign :: d :: rest =>
    if (sign = '+' ∨ sign = '-') ∧ d.isDigit ∧ awaitsExponent (cs.takeWhile inNumber) then
      (cs.takeWhile inNumber ++ sign :: d :: rest.takeWhile Char.isDigit,
        rest.dropWhile Char.isDigit)
    else (cs.takeWhile inNumber,sign :: d :: rest)
  | rest => (cs.takeWhile inNumber,rest)

/-- The number that a literal stands for. Underscores only group digits. -/
def ofLiteral? (literal : List Char) : Option Token :=
  match literal.filter (· != '_') with
  | '0' :: 'x' :: digits | '0' :: 'X' :: digits => word? 16 digits
  | '0' :: 'b' :: digits | '0' :: 'B' :: digits => word? 2 digits
  | digits =>
    if digits.all Char.isDigit then word? 10 digits else (Number.decimal? digits).map .float
where
  /-- The whole number written with digits to a base, if it fits a word. -/
  word? (base : Nat) (digits : List Char) : Option Token :=
    (Number.ofBase? base digits).bind fun n => (Number.fit? n).map .int

/-- The token that starts with `c` and goes on in `cs`, and the rest. `total` is the length in bytes
of the whole expression. -/
def first (total : Nat) (c : Char) (cs : List Char) : Except Fault (Token × List Char) :=
  match single? c with
  | some token => .ok (token,cs)
  | none =>
    if c = '"' ∨ c = '\'' then
      match quotedText? c cs with
      | some (body,rest) => .ok (.text (String.ofList body),rest)
      | none => .error .unterminatedText
    else if c.isDigit then
      match ofLiteral? (numberRun (c :: cs)).1 with
      | some token => .ok (token,(numberRun (c :: cs)).2)
      | none => .error (.invalidNumber (String.ofList (numberRun (c :: cs)).1))
    else if startsName c then
      .ok (.name (String.ofList (c :: cs.takeWhile inName)),cs.dropWhile inName)
    else .error (.unexpectedChar c (total - byteLength (c :: cs)))

theorem length_quotedText? {quote : Char} {cs body rest : List Char}
    (closed : quotedText? quote cs = some (body,rest)) : rest.length < cs.length := by
  fun_induction quotedText? quote cs generalizing body rest with
  | case1 => simp at closed
  | case2 => simp_all
  | case3 => simp at closed
  | case4 d rest' _ ih =>
    obtain ⟨⟨inner,after⟩,found,same⟩ := Option.map_eq_some_iff.1 closed
    have shorter := ih found
    simp only [Prod.mk.injEq] at same
    simp only [← same.2, List.length_cons]
    omega
  | case5 _ cs' _ _ ih =>
    obtain ⟨⟨inner,after⟩,found,same⟩ := Option.map_eq_some_iff.1 closed
    have shorter := ih found
    simp only [Prod.mk.injEq] at same
    simp only [← same.2, List.length_cons]
    omega

theorem numberRun_append (cs : List Char) : (numberRun cs).1 ++ (numberRun cs).2 = cs := by
  have whole := List.takeWhile_append_dropWhile (p := inNumber) (l := cs)
  unfold numberRun
  split
  · next sign d rest found =>
    rw [found] at whole
    split <;> simp [List.takeWhile_append_dropWhile, whole]
  · simp

/-- A token takes at least its first character. -/
theorem length_first {total : Nat} {c : Char} {cs rest : List Char} {token : Token}
    (found : first total c cs = .ok (token,rest)) : rest.length ≤ cs.length := by
  unfold first at found
  split at found
  · obtain ⟨-,rfl⟩ := Prod.mk.inj (Except.ok.inj found)
    exact Nat.le_refl _
  · split at found
    · split at found
      · next closed =>
        obtain ⟨-,rfl⟩ := Prod.mk.inj (Except.ok.inj found)
        exact Nat.le_of_lt (length_quotedText? closed)
      · contradiction
    · split at found
      · next digit =>
        have whole := congrArg List.length (numberRun_append (c :: cs))
        have one : 1 ≤ (numberRun (c :: cs)).1.length := by
          have starts : inNumber c = true := by simp [inNumber, Char.isAlphanum, digit]
          unfold numberRun
          split
          · split <;> simp [starts]
          · simp [starts]
        simp only [List.length_append, List.length_cons] at whole
        split at found
        · obtain ⟨-,rfl⟩ := Prod.mk.inj (Except.ok.inj found)
          omega
        · contradiction
      · split at found
        · obtain ⟨-,rfl⟩ := Prod.mk.inj (Except.ok.inj found)
          exact (List.dropWhile_sublist _).length_le
        · contradiction

def scanFrom (total : Nat) : List Char → Except Fault (List Token)
  | [] => .ok []
  | c :: cs =>
    if Text.isBlank c then scanFrom total cs
    else
      match found : first total c cs with
      | .error fault => .error fault
      | .ok (token,rest) =>
        have _ := length_first found
        (scanFrom total rest).map (token :: ·)
termination_by cs => cs.length
decreasing_by
  all_goals simp only [List.length_cons]; omega

/-- Scanning past one more token, without the fact that the recursion rests on. -/
theorem scanFrom_cons (total : Nat) (c : Char) (cs : List Char) :
    scanFrom total (c :: cs) =
      if Text.isBlank c then scanFrom total cs
      else
        match first total c cs with
        | .error fault => .error fault
        | .ok (token,rest) => (scanFrom total rest).map (token :: ·) := by
  rw [scanFrom]
  split
  · rfl
  · split <;> simp_all

def scan (source : String) : Except Fault (List Token) :=
  scanFrom (byteLength source.toList) source.toList

end Token

end ThemeForge
