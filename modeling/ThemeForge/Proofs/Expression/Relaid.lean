import Mathlib.Data.List.Forall2
import ThemeForge.Expression.Lexeme
import ThemeForge.Proofs.Expression.Reading
import ThemeForge.Proofs.Text.Relaid

/-!
# Other layouts of an expression

Blanks only separate tokens, so in another layout an expression has the same tokens but for the
layouts of its texts, and its tree differs in these texts only.
-/

namespace ThemeForge

namespace Text

def blanks : List Char :=
  [0x9,0xA,0xB,0xC,0xD,0x20,0x85,0xA0,0x1680,0x2000,0x2001,0x2002,0x2003,0x2004,0x2005,0x2006,
    0x2007,0x2008,0x2009,0x200A,0x2028,0x2029,0x202F,0x205F,0x3000].map Char.ofNat

theorem mem_blanks {c : Char} (blank : isBlank c = true) : c ∈ blanks := by
  obtain ⟨r,member,low,high⟩ := exists_range_of_inRanges blank
  refine List.mem_map.mpr ⟨c.toNat,?_,Char.ofNat_toNat c⟩
  simp only [blankRanges, List.mem_cons, List.not_mem_nil, or_false] at member
  simp only [List.mem_cons, List.not_mem_nil, or_false]
  rcases member with rfl | rfl | rfl | rfl | rfl | rfl | rfl | rfl | rfl | rfl <;>
    dsimp only at low high <;> omega

theorem ne_of_blank {c d : Char} (blank : isBlank c = true) (shown : isBlank d = false) : c ≠ d := by
  rintro rfl
  exact Bool.false_ne_true (shown.symm.trans blank)

end Text

namespace Token

open Text

variable {c : Char} {x y w : List Char}

theorem not_inName_of_blank (blank : isBlank c = true) : inName c = false := by
  have none : blanks.all (fun c => !inName c) = true := by decide +kernel
  simpa using List.all_eq_true.mp none c (mem_blanks blank)

theorem not_inNumber_of_blank (blank : isBlank c = true) : inNumber c = false := by
  have none : blanks.all (fun c => !inNumber c) = true := by decide
  simpa using List.all_eq_true.mp none c (mem_blanks blank)

theorem not_digit_of_blank (blank : isBlank c = true) : c.isDigit = false := by
  have none : blanks.all (fun c => !c.isDigit) = true := by decide
  simpa using List.all_eq_true.mp none c (mem_blanks blank)

theorem unescape_blank (blank : isBlank c = true) : unescape c = c := by
  have none : blanks.all (fun c => unescape c == c) = true := by decide
  simpa using List.all_eq_true.mp none c (mem_blanks blank)

theorem quotedText?_closed (quote : Char) (x : List Char) :
    quotedText? quote (quote :: x) = some ([],x) := by
  rw [quotedText?.eq_def]
  exact if_pos rfl

theorem quotedText?_plain (inside : c ≠ quote) (plain : c ≠ '\\') (x : List Char) :
    quotedText? quote (c :: x) = (quotedText? quote x).map fun (body,rest) => (c :: body,rest) := by
  rw [quotedText?.eq_def]
  simp only [if_neg inside, if_neg plain]

theorem quotedText?_escape (other : '\\' ≠ quote) (d : Char) (x : List Char) :
    quotedText? quote ('\\' :: d :: x) =
      (quotedText? quote x).map fun (body,rest) => (unescape d :: body,rest) := by
  rw [quotedText?.eq_def]
  exact if_neg other

/-- Blanks in a quoted text stand for themselves, -/
theorem quotedText?_blank_append (blank : ∀ c ∈ w, isBlank c = true)
    (shown : isBlank quote = false) (x : List Char) :
    quotedText? quote (w ++ x) =
      (quotedText? quote x).map fun (body,rest) => (w ++ body,rest) := by
  induction w with
  | nil => simp
  | cons c w ih =>
    obtain ⟨first,others⟩ := List.forall_mem_cons.mp blank
    rw [List.cons_append, quotedText?_plain (ne_of_blank first shown)
      (ne_of_blank first (by decide)), ih others, Option.map_map]
    rfl

theorem quotedText?_escape_gap (gap : Gap w) (other : '\\' ≠ quote)
    (shown : isBlank quote = false) (x : List Char) :
    quotedText? quote ('\\' :: (w ++ x)) =
      (quotedText? quote x).map fun (body,rest) => (w ++ body,rest) := by
  obtain ⟨c,w,rfl,first⟩ := gap.exists_cons
  have others : ∀ c ∈ w, isBlank c = true := fun c member => gap.blank c (List.mem_cons_of_mem _ member)
  rw [List.cons_append, quotedText?_escape other, quotedText?_blank_append others shown,
    unescape_blank first, Option.map_map]
  rfl

theorem quotedText?_relaid (relaid : Relaid x y) (shown : isBlank quote = false) :
    Parted (quotedText? quote x) (quotedText? quote y) := by
  induction size : x.length using Nat.strongRecOn generalizing x y with
  | ind size shorter =>
    subst size
    cases relaid with
    | nil => exact .none
    | @gap w v x y first second relaid =>
      rw [quotedText?_blank_append first.blank shown, quotedText?_blank_append second.blank shown]
      refine (shorter x.length ?_ relaid rfl).before (.gaps first second)
      have some := List.length_pos_iff.mpr first.ne_nil
      rw [List.length_append]
      omega
    | @cons x y c relaid =>
      by_cases ends : c = quote
      · subst ends
        rw [quotedText?_closed, quotedText?_closed]
        exact .some .nil relaid
      by_cases plain : c = '\\'
      · subst plain
        cases relaid with
        | nil =>
          rw [quotedText?.eq_def]
          simp only [if_neg ends, if_true]
          exact .none
        | @cons x y d relaid =>
          rw [quotedText?_escape ends, quotedText?_escape ends]
          exact (shorter x.length (by simp only [List.length_cons]; omega) relaid rfl).cons _
        | @gap w v x y first second relaid =>
          rw [quotedText?_escape_gap first ends shown, quotedText?_escape_gap second ends shown]
          refine (shorter x.length ?_ relaid rfl).before (.gaps first second)
          rw [List.length_cons, List.length_append]
          omega
      · rw [quotedText?_plain ends plain, quotedText?_plain ends plain]
        exact (shorter x.length (by simp) relaid rfl).cons c

def Exponent (number : List Char) (sign d : Char) : Prop :=
  (sign = '+' ∨ sign = '-') ∧ d.isDigit = true ∧ awaitsExponent number = true

theorem Exponent.shown (exponent : Exponent number sign d) :
    isBlank sign = false ∧ isBlank d = false := by
  obtain ⟨signed,digit,_⟩ := exponent
  refine ⟨by rcases signed with rfl | rfl <;> decide,?_⟩
  cases blank : isBlank d with
  | false => rfl
  | true => cases digit.symm.trans (not_digit_of_blank blank)

theorem numberRun_exponent (rest : x.dropWhile inNumber = sign :: d :: z)
    (exponent : Exponent (x.takeWhile inNumber) sign d) :
    numberRun x = (x.takeWhile inNumber ++ sign :: d :: z.takeWhile Char.isDigit,
      z.dropWhile Char.isDigit) := by
  rw [numberRun, rest]
  exact if_pos exponent

theorem numberRun_plain (ends : ∀ sign d z, x.dropWhile inNumber = sign :: d :: z →
    ¬Exponent (x.takeWhile inNumber) sign d) :
    numberRun x = (x.takeWhile inNumber,x.dropWhile inNumber) := by
  unfold numberRun
  split
  · next sign d z rest =>
    rw [rest]
    exact if_neg (ends sign d z rest)
  · rfl

theorem Exponent.relaid (exponent : Exponent (x.takeWhile inNumber) sign d) (relaid : Relaid x y)
    (rest : x.dropWhile inNumber = sign :: d :: z) :
    ∃ z', y.dropWhile inNumber = sign :: d :: z' ∧ Relaid z z' ∧
      Exponent (y.takeWhile inNumber) sign d := by
  obtain ⟨same,behind⟩ := relaid.span fun c => not_inNumber_of_blank (c := c)
  rw [rest] at behind
  obtain ⟨others,rest',digits⟩ := behind.solid exponent.shown.1
  obtain ⟨z',rfl,alike⟩ := digits.solid exponent.shown.2
  exact ⟨z',rest',alike,same ▸ exponent⟩

theorem numberRun_relaid (relaid : Relaid x y) :
    (numberRun x).1 = (numberRun y).1 ∧ Relaid (numberRun x).2 (numberRun y).2 := by
  obtain ⟨same,behind⟩ := relaid.span fun c => not_inNumber_of_blank (c := c)
  by_cases goes : ∃ sign d z, x.dropWhile inNumber = sign :: d :: z ∧
      Exponent (x.takeWhile inNumber) sign d
  · obtain ⟨sign,d,z,rest,exponent⟩ := goes
    obtain ⟨z',rest',behind,exponent'⟩ := exponent.relaid relaid rest
    rw [numberRun_exponent rest exponent, numberRun_exponent rest' exponent', same]
    obtain ⟨digits,others⟩ := behind.span fun c => not_digit_of_blank (c := c)
    exact ⟨by rw [digits],others⟩
  · have ends : ∀ sign d z, x.dropWhile inNumber = sign :: d :: z →
        ¬Exponent (x.takeWhile inNumber) sign d :=
      fun sign d z rest exponent => goes ⟨sign,d,z,rest,exponent⟩
    have ends' : ∀ sign d z, y.dropWhile inNumber = sign :: d :: z →
        ¬Exponent (y.takeWhile inNumber) sign d := by
      intro sign d z rest exponent
      obtain ⟨z',rest',_,exponent'⟩ := exponent.relaid relaid.symm rest
      exact ends sign d z' rest' exponent'
    rw [numberRun_plain ends, numberRun_plain ends']
    exact ⟨same,behind⟩

inductive Relaid : Token → Token → Prop
  | same : Relaid token token
  | text : Text.Alike body other → Relaid (.text body) (.text other)

theorem first_relaid (shown : isBlank c = false) (found : first n c x = .ok (token,rest))
    (relaid : Text.Relaid x y) (m : Nat) :
    ∃ token' rest', first m c y = .ok (token',rest') ∧ Relaid token token' ∧
      Text.Relaid rest rest' := by
  unfold first at found ⊢
  cases single : single? c with
  | some token =>
    rw [single] at found
    cases found
    exact ⟨_,_,rfl,.same,relaid⟩
  | none =>
    rw [single] at found
    dsimp only at found ⊢
    by_cases quoted : c = '"' ∨ c = '\''
    · rw [if_pos quoted] at found ⊢
      have parted := quotedText?_relaid relaid shown
      cases closed : quotedText? c x with
      | none => simp [closed] at found
      | some parts =>
        simp only [closed] at found
        cases found
        obtain ⟨body',rest',again,body,rest⟩ := (closed ▸ parted).exists_some
        exact ⟨_,_,by rw [again],.text (by simpa [Alike] using body),rest⟩
    rw [if_neg quoted] at found ⊢
    by_cases digit : c.isDigit = true
    · rw [if_pos digit] at found ⊢
      obtain ⟨same,rest⟩ := numberRun_relaid (.cons (c := c) relaid)
      rw [← same]
      cases literal : ofLiteral? (numberRun (c :: x)).1 with
      | none => simp [literal] at found
      | some token =>
        simp only [literal] at found
        cases found
        exact ⟨_,_,rfl,.same,rest⟩
    rw [if_neg digit] at found ⊢
    by_cases name : startsName c = true
    · rw [if_pos name] at found ⊢
      cases found
      obtain ⟨same,rest⟩ := relaid.span fun c => not_inName_of_blank (c := c)
      exact ⟨_,_,rfl,same ▸ .same,rest⟩
    · rw [if_neg name] at found
      cases found

theorem scanFrom_blank_append (blank : ∀ c ∈ w, isBlank c = true) (n : Nat) (x : List Char) :
    scanFrom n (w ++ x) = scanFrom n x := by
  induction w with
  | nil => rfl
  | cons c w ih =>
    obtain ⟨first,others⟩ := List.forall_mem_cons.mp blank
    rw [List.cons_append, scanFrom_cons, if_pos first, ih others]

theorem scanFrom_relaid (found : scanFrom n x = .ok tokens) (relaid : Text.Relaid x y) (m : Nat) :
    ∃ others, scanFrom m y = .ok others ∧ List.Forall₂ Relaid tokens others := by
  induction size : x.length using Nat.strongRecOn generalizing x y tokens with
  | ind size shorter =>
    subst size
    cases relaid with
    | nil =>
      rw [scanFrom] at found
      cases found
      exact ⟨[],by rw [scanFrom],.nil⟩
    | @gap w v x y first second relaid =>
      rw [scanFrom_blank_append first.blank] at found
      rw [scanFrom_blank_append second.blank]
      refine shorter x.length ?_ found relaid rfl
      have some := List.length_pos_iff.mpr first.ne_nil
      rw [List.length_append]
      omega
    | @cons x y c relaid =>
      rw [scanFrom_cons] at found ⊢
      by_cases blank : isBlank c = true
      · rw [if_pos blank] at found ⊢
        exact shorter x.length (by simp) found relaid rfl
      rw [if_neg blank] at found ⊢
      rcases cut : first n c x with fault | ⟨token,rest⟩
      · simp [cut] at found
      · simp only [cut] at found
        obtain ⟨more,later,rfl⟩ := map_ok_iff.mp found
        obtain ⟨token',rest',cut',alike,behind⟩ := first_relaid (by simpa [Alike] using blank) cut relaid m
        have fewer := length_first cut
        obtain ⟨others,again,each⟩ :=
          shorter rest.length (by rw [List.length_cons]; omega) later behind rfl
        exact ⟨token' :: others,by rw [cut']; simp [again, Except.map],.cons alike each⟩

end Token

inductive Expr.Relaid : Expr → Expr → Prop
  | int : Relaid (.int i) (.int i)
  | float : Relaid (.float x) (.float x)
  | text : Text.Alike body other → Relaid (.text body) (.text other)
  | symbol : Relaid (.symbol name) (.symbol name)
  | unary : Relaid e e' → Relaid (.unary sign e) (.unary sign e')
  | binary : Relaid left left' → Relaid right right' →
      Relaid (.binary operator left right) (.binary operator left' right')
  | noArgument : Relaid (.call function [] []) (.call function [] [])
  | positional : Relaid e e' → Relaid (.call function more named) (.call function more' named') →
      Relaid (.call function (e :: more) named) (.call function (e' :: more') named')
  | keyword : Relaid e e' → Relaid (.call function [] named) (.call function [] named') →
      Relaid (.call function [] ((name,e) :: named)) (.call function [] ((name,e') :: named'))

theorem Expr.Relaid.exists_call (relaid : Relaid (.call function more named) e) :
    ∃ more' named', e = .call function more' named' := by
  cases relaid with
  | noArgument => exact ⟨_,_,rfl⟩
  | positional => exact ⟨_,_,rfl⟩
  | keyword => exact ⟨_,_,rfl⟩

theorem Expr.Relaid.exists_keywords (relaid : Relaid (.call function [] named) e) :
    ∃ named', e = .call function [] named' := by
  cases relaid with
  | noArgument => exact ⟨_,rfl⟩
  | keyword => exact ⟨_,rfl⟩

namespace Phrase

/-- The same phrase, behind first operands in another layout. -/
inductive Relaid : Phrase → Phrase → Prop
  | chain : Relaid (.chain kind) (.chain kind)
  | rest : left.Relaid left' → Relaid (.rest kind left) (.rest kind left')
  | signed : Relaid .signed .signed
  | primary : Relaid .primary .primary
  | arguments : Relaid (.arguments function) (.arguments function)
  | keywords : Relaid (.keywords function) (.keywords function)

theorem operand_relaid (kind : Chain) : Relaid kind.operand kind.operand := by
  cases kind with
  | sum => exact .chain
  | product => exact .signed

theorem operator?_text (kind : Chain) (s : String) : kind.operator? (.text s) = none := by
  cases kind <;> rfl

end Phrase

theorem exists_of_forall₂_append {R : α → β → Prop} {as bs : List α} {cs : List β}
    (all : List.Forall₂ R (as ++ bs) cs) :
    ∃ front back, cs = front ++ back ∧ List.Forall₂ R as front ∧ List.Forall₂ R bs back := by
  induction as generalizing cs with
  | nil => exact ⟨[],cs,rfl,.nil,all⟩
  | cons a as ih =>
    cases all with
    | cons first rest =>
      obtain ⟨front,back,rfl,each,others⟩ := ih rest
      exact ⟨_ :: front,back,rfl,.cons first each,others⟩

/-- Tokens in another layout derive the tree in another layout, at the same levels. -/
theorem Phrase.Derives.relaid (derives : Derives p d ts e t) (alike : p.Relaid p')
    (tokens : List.Forall₂ Token.Relaid ts ts') : ∃ e', Derives p' d ts' e' t ∧ e.Relaid e' := by
  induction derives generalizing p' ts' with
  | chain _ _ ih others =>
    cases alike
    obtain ⟨front,back,rfl,each,further⟩ := exists_of_forall₂_append tokens
    obtain ⟨left,first,relaid⟩ := ih (operand_relaid _) each
    obtain ⟨e',rest,whole⟩ := others (.rest relaid) further
    exact ⟨e',.chain first rest,whole⟩
  | last =>
    cases alike with
    | rest relaid =>
      cases tokens
      exact ⟨_,.last,relaid⟩
  | operand operator _ _ ih others =>
    cases alike with
    | rest relaid =>
      cases tokens with
      | cons token tokens =>
        obtain ⟨front,back,rfl,each,further⟩ := exists_of_forall₂_append tokens
        obtain ⟨right,next,alike⟩ := ih (operand_relaid _) each
        obtain ⟨e',rest,whole⟩ := others (.rest (.binary relaid alike)) further
        cases token with
        | same => exact ⟨e',.operand operator next rest,whole⟩
        | text => cases (operator?_text _ _).symm.trans operator
  | sign sign _ ih =>
    cases alike
    cases tokens with
    | cons token tokens =>
      obtain ⟨e',inner,whole⟩ := ih .signed tokens
      cases token with
      | same => exact ⟨.unary _ e',.sign sign inner,.unary whole⟩
      | text => cases sign
  | unsigned _ ih =>
    cases alike
    obtain ⟨e',primary,whole⟩ := ih .primary tokens
    exact ⟨e',.unsigned primary,whole⟩
  | int =>
    cases alike
    rcases tokens with _ | ⟨⟨⟩,⟨⟩⟩
    exact ⟨_,.int,.int⟩
  | float =>
    cases alike
    rcases tokens with _ | ⟨⟨⟩,⟨⟩⟩
    exact ⟨_,.float,.float⟩
  | text =>
    cases alike
    rcases tokens with _ | ⟨⟨⟩ | ⟨relaid⟩,⟨⟩⟩
    · exact ⟨_,.text,.text (.refl _)⟩
    · exact ⟨_,.text,.text relaid⟩
  | symbol =>
    cases alike
    rcases tokens with _ | ⟨⟨⟩,⟨⟩⟩
    exact ⟨_,.symbol,.symbol⟩
  | parentheses _ ih =>
    cases alike
    rcases tokens with _ | ⟨⟨⟩,tokens⟩
    obtain ⟨inside,closing,rfl,each,last⟩ := exists_of_forall₂_append tokens
    rcases last with _ | ⟨⟨⟩,⟨⟩⟩
    obtain ⟨e',inner,whole⟩ := ih .chain each
    exact ⟨e',.parentheses inner,whole⟩
  | call _ ih =>
    cases alike
    rcases tokens with _ | ⟨⟨⟩,_ | ⟨⟨⟩,tokens⟩⟩
    obtain ⟨e',inside,whole⟩ := ih .arguments tokens
    exact ⟨e',.call inside,whole⟩
  | lastPositional _ ih =>
    cases alike
    obtain ⟨argument,closing,rfl,each,last⟩ := exists_of_forall₂_append tokens
    rcases last with _ | ⟨⟨⟩,⟨⟩⟩
    obtain ⟨e',only,whole⟩ := ih .chain each
    exact ⟨_,.lastPositional only,.positional whole .noArgument⟩
  | positional _ _ ih others =>
    cases alike
    obtain ⟨argument,rest,rfl,each,further⟩ := exists_of_forall₂_append tokens
    rcases further with _ | ⟨⟨⟩,further⟩
    obtain ⟨e',first,whole⟩ := ih .chain each
    obtain ⟨call,more,rest⟩ := others .arguments further
    obtain ⟨more',named',rfl⟩ := rest.exists_call
    exact ⟨_,.positional first more,.positional whole rest⟩
  | onlyKeywords _ ih =>
    cases alike
    obtain ⟨e',only,whole⟩ := ih .keywords tokens
    exact ⟨e',.onlyKeywords only,whole⟩
  | noKeyword =>
    cases alike
    rcases tokens with _ | ⟨⟨⟩,⟨⟩⟩
    exact ⟨_,.noKeyword,.noArgument⟩
  | lastKeyword _ ih =>
    cases alike
    rcases tokens with _ | ⟨⟨⟩,_ | ⟨⟨⟩,tokens⟩⟩
    obtain ⟨argument,closing,rfl,each,last⟩ := exists_of_forall₂_append tokens
    rcases last with _ | ⟨⟨⟩,⟨⟩⟩
    obtain ⟨e',only,whole⟩ := ih .chain each
    exact ⟨_,.lastKeyword only,.keyword whole .noArgument⟩
  | keyword _ _ ih others =>
    cases alike
    rcases tokens with _ | ⟨⟨⟩,_ | ⟨⟨⟩,tokens⟩⟩
    obtain ⟨argument,rest,rfl,each,further⟩ := exists_of_forall₂_append tokens
    rcases further with _ | ⟨⟨⟩,further⟩
    obtain ⟨e',first,whole⟩ := ih .chain each
    obtain ⟨call,more,rest⟩ := others .keywords further
    obtain ⟨named',rfl⟩ := rest.exists_keywords
    exact ⟨_,.keyword first more,.keyword whole rest⟩

/-- An expression in another layout is read as its tree is in another layout. -/
theorem Expr.parse_relaid {source other : String} (read : parse source = .ok e)
    (alike : Text.Alike source other) :
    ∃ e', parse other = .ok e' ∧ e.Relaid e' := by
  obtain ⟨tokens,scanned,read⟩ := bind_ok_iff.mp read
  obtain ⟨others,scanned',each⟩ :=
    Token.scanFrom_relaid scanned alike (Token.byteLength other.toList)
  obtain ⟨top,derives,low⟩ := exists_derives read
  obtain ⟨e',derives',relaid⟩ := derives.relaid .chain each
  refine ⟨e',?_,relaid⟩
  rw [parse, Token.scan, scanned']
  exact ofTokens_of_derives derives' low

end ThemeForge
