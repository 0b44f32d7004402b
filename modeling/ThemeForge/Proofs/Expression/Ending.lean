import ThemeForge.Proofs.Expression.Relaid

/-!
# Where tokens end

A character that no number and no name goes on with ends them, so a token that is read before it is
read in the same way whatever follows. Only a quoted text reaches over such a character. A closing
brace starts no token either: in an expression it stands inside a quoted text or nowhere.
-/

namespace ThemeForge.Token

open Text

/-- A character that ends numbers and names. A sign does not end every number. -/
structure Ends (d : Char) : Prop where
  number : inNumber d = false
  unsigned : ¬(d = '+' ∨ d = '-')
  name : inName d = false

variable {p : Char → Bool} {c d quote : Char} {cs after body : List Char} {m n : Nat}

theorem takeWhile_ended (ended : p d = false) (cs rest : List Char) :
    (cs ++ d :: rest).takeWhile p = cs.takeWhile p := by
  induction cs with
  | nil => simp [ended]
  | cons e cs ih => simp only [List.cons_append, List.takeWhile_cons, ih]

theorem dropWhile_ended (ended : p d = false) (cs rest : List Char) :
    (cs ++ d :: rest).dropWhile p = cs.dropWhile p ++ d :: rest := by
  induction cs with
  | nil => simp [ended]
  | cons e cs ih =>
    rw [List.cons_append, List.dropWhile_cons, List.dropWhile_cons, ih]
    split <;> rfl

theorem Ends.not_digit (ends : Ends d) : d.isDigit = false := by
  have number := ends.number
  simp only [inNumber, Char.isAlphanum, Bool.or_eq_false_iff] at number
  exact number.1.1.2

/-- The two characters that are looked at for an exponent are none of what follows the end. -/
theorem numberRun_ended (ends : Ends d) (cs rest : List Char) :
    numberRun (cs ++ d :: rest) = ((numberRun cs).1,(numberRun cs).2 ++ d :: rest) := by
  have taken := takeWhile_ended ends.number cs rest
  have left := dropWhile_ended ends.number cs rest
  by_cases goes : ∃ sign e z, cs.dropWhile inNumber = sign :: e :: z ∧
      Exponent (cs.takeWhile inNumber) sign e
  · obtain ⟨sign,e,z,behind,exponent⟩ := goes
    have behind' : (cs ++ d :: rest).dropWhile inNumber = sign :: e :: (z ++ d :: rest) := by
      rw [left, behind]
      rfl
    rw [numberRun_exponent behind exponent, numberRun_exponent behind' (taken ▸ exponent), taken,
      takeWhile_ended ends.not_digit, dropWhile_ended ends.not_digit]
  · have plain : ∀ sign e z, cs.dropWhile inNumber = sign :: e :: z →
        ¬Exponent (cs.takeWhile inNumber) sign e :=
      fun sign e z behind exponent => goes ⟨sign,e,z,behind,exponent⟩
    have plain' : ∀ sign e z, (cs ++ d :: rest).dropWhile inNumber = sign :: e :: z →
        ¬Exponent ((cs ++ d :: rest).takeWhile inNumber) sign e := by
      intro sign e z behind exponent
      rw [left] at behind
      rw [taken] at exponent
      cases found : cs.dropWhile inNumber with
      | nil =>
        rw [found] at behind
        cases behind
        exact ends.unsigned exponent.1
      | cons first others =>
        rw [found] at behind
        cases others with
        | nil =>
          cases behind
          exact Bool.false_ne_true (ends.not_digit.symm.trans exponent.2.1)
        | cons second others =>
          cases behind
          exact plain _ _ _ found exponent
    rw [numberRun_plain plain, numberRun_plain plain', taken, left]

theorem quotedText?_append (closed : quotedText? quote cs = some (body,after))
    (rest : List Char) : quotedText? quote (cs ++ rest) = some (body,after ++ rest) := by
  fun_induction quotedText? quote cs generalizing body after with
  | case1 => cases closed
  | case2 cs =>
    cases closed
    exact quotedText?_closed _ _
  | case3 => cases closed
  | case4 d cs other ih =>
    obtain ⟨⟨inside,behind⟩,found,same⟩ := Option.map_eq_some_iff.mp closed
    cases same
    rw [List.cons_append, List.cons_append, quotedText?_escape other, ih found]
    rfl
  | case5 c cs inside plain ih =>
    obtain ⟨⟨inside',behind⟩,found,same⟩ := Option.map_eq_some_iff.mp closed
    cases same
    rw [List.cons_append, quotedText?_plain inside plain, ih found]
    rfl

theorem quotedText?_concat (open_ : quotedText? quote cs = none) (other : d ≠ quote) :
    quotedText? quote (cs ++ [d]) = none := by
  fun_induction quotedText? quote cs with
  | case1 =>
    rw [List.nil_append, quotedText?.eq_def]
    simp [other, quotedText?]
  | case2 => cases open_
  | case3 inside =>
    rw [List.cons_append, List.nil_append, quotedText?_escape inside]
    rfl
  | case4 e cs inside ih =>
    rw [List.cons_append, List.cons_append, quotedText?_escape inside,
      ih (Option.map_eq_none_iff.mp open_)]
    rfl
  | case5 c cs inside plain ih =>
    rw [List.cons_append, quotedText?_plain inside plain, ih (Option.map_eq_none_iff.mp open_)]
    rfl

/-- A token that is read up to its end is read in the same way before more text. -/
theorem first_append (ends : Ends d) (found : first m c cs = .ok (token,after)) (n : Nat)
    (rest : List Char) : first n c (cs ++ d :: rest) = .ok (token,after ++ d :: rest) := by
  have number := numberRun_ended ends (c :: cs) rest
  rw [List.cons_append] at number
  unfold first at found ⊢
  rw [number, takeWhile_ended ends.name, dropWhile_ended ends.name]
  cases single : single? c with
  | some token =>
    simp only [single] at found ⊢
    cases found
    rfl
  | none =>
    simp only [single] at found ⊢
    split at found
    · split at found
      · rename_i closed
        cases found
        simp [quotedText?_append closed (d :: rest), *]
      · cases found
    · split at found
      · split at found
        · cases found
          simp [*]
        · cases found
      · split at found
        · cases found
          simp [*]
        · cases found

/-- What is no token is none before more text either, if it is no open quoted text. -/
theorem first_append_error (ends : Ends d) (failed : first m c cs = .error fault)
    (closed : fault ≠ .unterminatedText) (n : Nat) (rest : List Char) :
    ∃ fault, first n c (cs ++ d :: rest) = .error fault := by
  have number := numberRun_ended ends (c :: cs) rest
  rw [List.cons_append] at number
  unfold first at failed ⊢
  rw [number]
  split at failed
  · cases failed
  · split at failed
    · split at failed
      · cases failed
      · cases failed
        exact absurd rfl closed
    · split at failed
      · split at failed
        · cases failed
        · simp [*]
      · split at failed
        · cases failed
        · simp [*]

theorem first_concat (failed : first m c cs = .error .unterminatedText)
    (unquoted : ¬(d = '"' ∨ d = '\'')) (n : Nat) :
    first n c (cs ++ [d]) = .error .unterminatedText := by
  unfold first at failed ⊢
  split at failed
  · cases failed
  · split at failed
    · rename_i quoted
      split at failed
      · cases failed
      · rename_i open_
        have other : d ≠ c := fun same => unquoted (same ▸ quoted)
        simp [quotedText?_concat open_ other, *]
    · split at failed
      · split at failed <;> cases failed
      · split at failed <;> cases failed

theorem ends_brace : Ends '}' := ⟨by decide,by decide,by decide⟩

theorem scanFrom_brace (n : Nat) (rest : List Char) :
    scanFrom n ('}' :: rest) = .error (.unexpectedChar '}' (n - byteLength ('}' :: rest))) := by
  rw [scanFrom_cons, first]
  simp [show isBlank '}' = false by decide, show single? '}' = none by decide,
    show Char.isDigit '}' = false by decide, show startsName '}' = false by decide]

/-- A closing brace in an expression stands in a quoted text that is closed behind it. Cut off before
the brace, the expression ends inside that text. -/
theorem scanFrom_before_brace (read : scanFrom n (cs ++ '}' :: rest) = .ok tokens) (m : Nat) :
    scanFrom m cs = .error .unterminatedText ∧ rest ≠ [] := by
  induction size : cs.length using Nat.strongRecOn generalizing cs tokens with
  | ind size shorter =>
    subst size
    cases cs with
    | nil =>
      rw [List.nil_append, scanFrom_brace] at read
      cases read
    | cons c cs =>
      rw [List.cons_append, scanFrom_cons] at read
      rw [scanFrom_cons]
      by_cases blank : isBlank c = true
      · rw [if_pos blank] at read ⊢
        exact shorter cs.length (by simp) read rfl
      rw [if_neg blank] at read ⊢
      rcases found : first m c cs with fault | ⟨token,after⟩
      · by_cases closed : fault = .unterminatedText
        · subst closed
          refine ⟨rfl,?_⟩
          rintro rfl
          rw [first_concat found (by decide)] at read
          cases read
        · obtain ⟨fault',failed⟩ := first_append_error ends_brace found closed n rest
          rw [failed] at read
          cases read
      · rw [first_append ends_brace found n rest] at read
        obtain ⟨others,later,_⟩ := map_ok_iff.mp read
        have fewer := length_first found
        obtain ⟨inside,behind⟩ :=
          shorter after.length (by rw [List.length_cons]; omega) later rfl
        simp [inside, behind, Except.map]

end ThemeForge.Token
