import ThemeForge.Proofs.Expression.Reading
import Mathlib

/-!
# The height of expressions

The level at which a chain starts is that of its first operand, and it is given back before the chain
grows above that operand. So levels do not bound the tree: each of them can add two chains, one of
products and one of sums, that are as long as there are levels left. The greatest height is the
square of the number of levels.
-/

namespace ThemeForge

def Chain.tallestOperand : Chain → Nat → Nat
  | .sum, room => (room - 1) * room + 1
  | .product, room => (room - 1) * (room - 1) + 1

namespace Phrase

def tallest : Phrase → Nat → Nat
  | .chain kind, room => kind.tallestOperand room + (room - 1)
  | .rest kind left, room => max left.height (kind.tallestOperand room) + (room - 1)
  | .signed, room => (room - 1) * (room - 1) + 1
  | .primary, room | .arguments _, room | .keywords _, room => room * room + 1

theorem tallest_operand (kind : Chain) (some : 0 < room) :
    kind.operand.tallest room = kind.tallestOperand room := by
  obtain ⟨n,rfl⟩ := Nat.exists_eq_add_one_of_ne_zero (Nat.ne_of_gt some)
  cases kind with
  | sum =>
    simp only [Chain.operand, tallest, Chain.tallestOperand, Nat.add_sub_cancel, Nat.mul_add_one]
    omega
  | product => rfl

theorem tallest_sum (some : 0 < room) : (chain .sum).tallest room = room * room := by
  obtain ⟨n,rfl⟩ := Nat.exists_eq_add_one_of_ne_zero (Nat.ne_of_gt some)
  simp only [tallest, Chain.tallestOperand, Nat.add_sub_cancel, Nat.add_mul, Nat.one_mul]
  omega

theorem tallestOperand_pred (kind : Chain) (room : Nat) :
    kind.tallestOperand (room - 1) ≤ kind.tallestOperand room := by
  have fewer : room - 1 ≤ room := Nat.sub_le room 1
  have fewest : room - 1 - 1 ≤ room - 1 := Nat.sub_le _ 1
  cases kind with
  | sum => exact Nat.add_le_add_right (Nat.mul_le_mul fewest fewer) 1
  | product => exact Nat.add_le_add_right (Nat.mul_le_mul fewest fewest) 1

theorem tallest_signed_pred (some : 1 < room) : signed.tallest (room - 1) + 1 ≤ signed.tallest room := by
  obtain ⟨n,rfl⟩ := Nat.exists_eq_add_of_lt some
  simp only [tallest, show 1 + n + 1 - 1 = n + 1 by omega, Nat.add_sub_cancel, Nat.mul_add_one,
    Nat.add_one_mul]
  omega

/-- The phrases that start a level below their first value. -/
def IsRaised : Phrase → Prop
  | .chain _ | .signed => True
  | _ => False

theorem operand_isRaised (kind : Chain) : kind.operand.IsRaised := by cases kind <;> trivial

namespace Derives

variable {p : Phrase} {d t limit : Nat} {ts : List Token} {e : Expr}

theorem level_lt_top (derives : Derives p d ts e t) (raised : p.IsRaised) : d < t := by
  induction derives with
  | chain _ _ ih _ =>
    have first := ih (operand_isRaised _)
    omega
  | sign _ _ ih =>
    have inner := ih trivial
    omega
  | unsigned primary _ => exact primary.level_le_top
  | _ => cases raised

/-- An expression in parentheses or an argument is no higher than the square of the levels above it. -/
theorem inside_le (inside : Derives (.chain .sum) d ts e t) (low : t ≤ limit)
    (bound : e.height ≤ (Phrase.chain .sum).tallest (limit - d)) :
    e.height ≤ (limit - d) * (limit - d) := by
  have above := inside.level_lt_top trivial
  rwa [tallest_sum (by omega)] at bound

/-- No derivation is taller than its phrase can be with the levels that it starts below `limit`. -/
theorem height_le (derives : Derives p d ts e t) (low : t ≤ limit) :
    e.height ≤ p.tallest (limit - d) := by
  induction derives with
  | chain first _ ih others =>
    have above := first.level_lt_top (operand_isRaised _)
    have operand := ih (by omega)
    have whole := others (by omega)
    rw [tallest_operand _ (by omega)] at operand
    simp only [tallest] at whole ⊢
    omega
  | last =>
    simp only [tallest]
    omega
  | @operand _ d _ _ _ kind _ _ _ _ _ _ next _ ih others =>
    have above := next.level_lt_top (operand_isRaised _)
    have right := ih (by omega)
    have whole := others (by omega)
    have fewer : limit - (d + 1) = limit - d - 1 := by omega
    have lower := tallestOperand_pred kind (limit - d)
    rw [tallest_operand _ (by omega), fewer] at right
    simp only [tallest, Expr.height, fewer] at whole ⊢
    omega
  | @sign _ _ d _ _ _ _ inner ih =>
    have above := inner.level_lt_top trivial
    have operand := ih low
    have lower := tallest_signed_pred (show 1 < limit - d by omega)
    rw [show limit - (d + 1) = limit - d - 1 by omega] at operand
    rw [Expr.height]
    omega
  | @unsigned d _ _ _ primary ih =>
    have value := ih low
    rwa [show limit - (d + 1) = limit - d - 1 by omega] at value
  | int | float | text | symbol =>
    simp only [Expr.height]
    omega
  | parentheses inside ih =>
    have whole := inside.inside_le low (ih low)
    simp only [tallest]
    omega
  | call _ ih => exact ih low
  | lastPositional argument ih =>
    have first := argument.inside_le low (ih low)
    simp only [tallest, Expr.height, Expr.heights, Expr.keywordHeights]
    omega
  | positional argument _ ih others =>
    have low' := Nat.le_trans (Nat.le_max_left _ _) low
    have first := argument.inside_le low' (ih low')
    have rest := others (by omega)
    simp only [tallest, Expr.height, Expr.heights] at rest ⊢
    omega
  | onlyKeywords _ ih => exact ih low
  | noKeyword =>
    simp only [tallest, Expr.height, Expr.heights, Expr.keywordHeights]
    omega
  | lastKeyword argument ih =>
    have first := argument.inside_le low (ih low)
    simp only [tallest, Expr.height, Expr.heights, Expr.keywordHeights]
    omega
  | keyword argument _ ih others =>
    have low' := Nat.le_trans (Nat.le_max_left _ _) low
    have first := argument.inside_le low' (ih low')
    have rest := others (by omega)
    simp only [tallest, Expr.height, Expr.heights, Expr.keywordHeights] at rest ⊢
    omega

def links (token : Token) (n : Nat) : List Token := (List.replicate n [token,.int 1]).flatten

theorem one (kind : Chain) (d : Nat) : Derives kind.operand d [.int 1] (.int 1) (d + 1) := by
  have signed : Derives Chain.product.operand d [.int 1] (.int 1) (d + 1) := .unsigned .int
  cases kind with
  | sum => simpa [Chain.operand] using Derives.chain signed .last
  | product => exact signed

/-- Each link makes what stands before it one level taller, as long as there are levels. -/
theorem links_derive {kind : Chain} {token : Token} (operator : kind.operator? token = some o)
    (n d : Nat) (left : Expr) :
    ∃ e t, Derives (.rest kind left) d (links token n) e t ∧ e.height = left.height + n ∧
      t ≤ d + n + 1 := by
  induction n generalizing d left with
  | zero => exact ⟨left,d,.last,rfl,by omega⟩
  | succ n ih =>
    obtain ⟨e,t,derives,height,low⟩ := ih (d + 1) (.binary o left (.int 1))
    refine ⟨e,max (d + 2) t,.operand operator (one kind (d + 1)) derives,?_,by omega⟩
    rw [height]
    simp only [Expr.height]
    omega

end Derives

end Phrase

def Token.tower : Nat → List Token
  | 0 => [.name "c",.leftParen,.rightParen]
  | n + 1 => .name "c" :: .leftParen :: (tower n ++ [.rightParen]) ++
      Phrase.Derives.links .star (n + 1) ++ Phrase.Derives.links .plus (n + 1)

theorem Phrase.Derives.tower (n d : Nat) :
    ∃ e t, Derives (.chain .sum) d (Token.tower n) e t ∧ e.height = (n + 1) * (n + 1) ∧
      t ≤ d + n + 1 := by
  induction n generalizing d with
  | zero =>
    have value : Derives .primary (d + 1) (.name Function.constant.name :: .leftParen ::
        [.rightParen]) (.call .constant [] []) (d + 1) := .call (.onlyKeywords .noKeyword)
    have call : Derives Chain.product.operand d (Token.tower 0) (.call .constant [] []) (d + 1) :=
      .unsigned value
    have product : Derives Chain.sum.operand d (Token.tower 0) (.call .constant [] []) (d + 1) := by
      simpa [Chain.operand] using Derives.chain call .last
    refine ⟨.call .constant [] [],d + 1,?_,rfl,by omega⟩
    simpa using Derives.chain product .last
  | succ n ih =>
    obtain ⟨inner,t,inside,height,low⟩ := ih (d + 1)
    have value : Derives .primary (d + 1) (.name Function.constant.name :: .leftParen ::
        (Token.tower n ++ [.rightParen])) (.call .constant [inner] []) t :=
      .call (.lastPositional inside)
    have call : Derives Chain.product.operand d
        (.name "c" :: .leftParen :: (Token.tower n ++ [.rightParen])) (.call .constant [inner] []) t :=
      .unsigned value
    have star : Chain.product.operator? .star = some .mul := rfl
    have plus : Chain.sum.operator? .plus = some .add := rfl
    obtain ⟨product,u,factors,heightProduct,lowProduct⟩ :=
      links_derive star (n + 1) d (.call .constant [inner] [])
    obtain ⟨sum,v,terms,heightSum,lowSum⟩ := links_derive plus (n + 1) d product
    refine ⟨sum,max (max t u) v,.chain (.chain call factors) terms,?_,by omega⟩
    rw [heightSum, heightProduct]
    simp only [Expr.height, Expr.heights, Expr.keywordHeights, height, Nat.add_mul, Nat.mul_add]
    omega

namespace Token

variable {total : Nat} {rest : List Char}

def linksText (symbol : Char) (n : Nat) : List Char := (List.replicate n [symbol,'1']).flatten

def towerText : Nat → List Char
  | 0 => ['c','(',')']
  | n + 1 => 'c' :: '(' :: (towerText n ++ ')' :: (linksText '*' (n + 1) ++ linksText '+' (n + 1)))

theorem scanFrom_single (single : single? c = some token) (solid : Text.isBlank c = false)
    (rest : List Char) : scanFrom total (c :: rest) = (scanFrom total rest).map (token :: ·) := by
  rw [scanFrom_cons, solid, first, single]
  rfl

theorem ended_cons (other : inNumber c = false) (rest : List Char) :
    ∀ d ∈ (c :: rest).head?, inNumber d = false := by
  simpa using other

/-- A digit alone is a number, if what follows does not go on with it. -/
theorem scanFrom_one (ended : ∀ c ∈ rest.head?, inNumber c = false) :
    scanFrom total ('1' :: rest) = (scanFrom total rest).map (.int 1 :: ·) := by
  have taken : ('1' :: rest).takeWhile inNumber = ['1'] := by
    cases rest with
    | nil => rfl
    | cons c cs => simp [ended c rfl, show inNumber '1' = true by decide]
  have left : ('1' :: rest).dropWhile inNumber = rest := by
    cases rest with
    | nil => rfl
    | cons c cs => simp [ended c rfl, show inNumber '1' = true by decide]
  have run : numberRun ('1' :: rest) = (['1'],rest) := by
    rw [numberRun, taken, left]
    split
    · simp [show awaitsExponent ['1'] = false by decide]
    · rfl
  have found : first total '1' rest = .ok (.int 1,rest) := by
    rw [first, show single? '1' = none by decide]
    simp only [run, show ofLiteral? ['1'] = some (.int 1) by cbv]
    rfl
  rw [scanFrom_cons, found]
  rfl

theorem scanFrom_call (rest : List Char) :
    scanFrom total ('c' :: '(' :: rest) =
      (scanFrom total rest).map fun tokens => .name "c" :: .leftParen :: tokens := by
  have found : first total 'c' ('(' :: rest) = .ok (.name "c",'(' :: rest) := by
    rw [first, show single? 'c' = none by decide]
    simp [show startsName 'c' = true by decide, show inName '(' = false by decide]
  rw [scanFrom_cons, found]
  simp only [show Text.isBlank 'c' = false by decide]
  rw [scanFrom_single (c := '(') rfl (by decide)]
  cases scanFrom total rest <;> rfl

theorem scanFrom_links {symbol : Char} (single : single? symbol = some token)
    (solid : Text.isBlank symbol = false) (other : inNumber symbol = false)
    (ended : ∀ c ∈ rest.head?, inNumber c = false) (n : Nat) :
    scanFrom total (linksText symbol n ++ rest) =
      (scanFrom total rest).map (Phrase.Derives.links token n ++ ·) := by
  induction n with
  | zero =>
    simp only [linksText, Phrase.Derives.links, List.replicate_zero, List.flatten_nil, List.nil_append]
    cases scanFrom total rest <;> rfl
  | succ n ih =>
    have next : ∀ c ∈ (linksText symbol n ++ rest).head?, inNumber c = false := by
      cases n with
      | zero => exact ended
      | succ n => exact ended_cons other _
    have whole : linksText symbol (n + 1) ++ rest = symbol :: '1' :: (linksText symbol n ++ rest) := rfl
    rw [whole, scanFrom_single single solid, scanFrom_one next, ih]
    cases scanFrom total rest <;> rfl

theorem scanFrom_tower (ended : ∀ c ∈ rest.head?, inNumber c = false) (n : Nat) :
    scanFrom total (towerText n ++ rest) = (scanFrom total rest).map (tower n ++ ·) := by
  induction n generalizing rest with
  | zero =>
    have whole : towerText 0 ++ rest = 'c' :: '(' :: ')' :: rest := rfl
    rw [whole, scanFrom_call, scanFrom_single (c := ')') rfl (by decide)]
    cases scanFrom total rest <;> rfl
  | succ n ih =>
    have whole : towerText (n + 1) ++ rest = 'c' :: '(' :: (towerText n ++
        ')' :: (linksText '*' (n + 1) ++ (linksText '+' (n + 1) ++ rest))) := by
      simp [towerText]
    have star : single? '*' = some .star := rfl
    have plus : single? '+' = some .plus := rfl
    have next : ∀ c ∈ (linksText '+' (n + 1) ++ rest).head?, inNumber c = false :=
      ended_cons (by decide) _
    rw [whole, scanFrom_call, ih (ended_cons (by decide) _), scanFrom_single (c := ')') rfl (by decide),
      scanFrom_links star (by decide) (by decide) next,
      scanFrom_links plus (by decide) (by decide) ended]
    cases scanFrom total rest with
    | error fault => rfl
    | ok tokens => simp [Except.map, tower]

theorem scan_tower (n : Nat) : scan (String.ofList (towerText n)) = .ok (tower n) := by
  rw [scan, String.toList_ofList, ← List.append_nil (towerText n), scanFrom_tower (by simp) n,
    scanFrom]
  simp [Except.map]

end Token

namespace Expr

/-- An expression is read without going above a level. -/
def ReadWithin (level : Nat) (source : String) (e : Expr) : Prop :=
  ∃ tokens top, Token.scan source = .ok tokens ∧
    Phrase.Derives (.chain .sum) 0 tokens e top ∧ top ≤ level

theorem readWithin_of_parse (read : parse source = .ok e) : ReadWithin maxDepth source e := by
  obtain ⟨tokens,scanned,read⟩ := bind_ok_iff.mp read
  obtain ⟨top,derives,low⟩ := exists_derives read
  exact ⟨tokens,top,scanned,derives,low⟩

theorem ReadWithin.height_le (within : ReadWithin level source e) : e.height ≤ level * level := by
  obtain ⟨tokens,top,_,derives,low⟩ := within
  have raised := derives.level_lt_top trivial
  have bound := derives.height_le low
  rwa [Nat.sub_zero, Phrase.tallest_sum (by omega)] at bound

/-- A tower is read if there are levels for its calls, however tall the links make it. -/
theorem parse_tower (low : n < maxDepth) :
    ∃ e, parse (String.ofList (Token.towerText n)) = .ok e ∧
      ReadWithin (n + 1) (String.ofList (Token.towerText n)) e ∧ e.height = (n + 1) * (n + 1) := by
  obtain ⟨e,top,derives,height,reached⟩ := Phrase.Derives.tower n 0
  have scanned := Token.scan_tower n
  refine ⟨e,?_,⟨_,top,scanned,derives,by omega⟩,height⟩
  rw [parse, scanned]
  exact ofTokens_of_derives derives (by omega)

/-- The greatest height of an expression is the square of the greatest depth. -/
theorem isGreatest_height :
    IsGreatest {n | ∃ source e, parse source = .ok e ∧ e.height = n} (maxDepth * maxDepth) := by
  refine ⟨?_,?_⟩
  · obtain ⟨e,read,_,height⟩ := parse_tower (n := maxDepth - 1) (by decide)
    exact ⟨_,e,read,height⟩
  · rintro n ⟨source,e,read,rfl⟩
    exact (readWithin_of_parse read).height_le

/-- All expressions that are read within some levels are no higher than the greatest depth exactly if
the square of the levels is not above it. -/
theorem height_le_maxDepth_iff (level : Nat) :
    (∀ source e, parse source = .ok e → ReadWithin level source e → e.height ≤ maxDepth) ↔
      level * level ≤ maxDepth := by
  constructor
  · intro bounded
    by_contra tall
    have more : 16 < level := by
      by_contra few
      have square : level * level ≤ 16 * 16 := Nat.mul_le_mul (by omega) (by omega)
      exact tall square
    obtain ⟨e,read,⟨tokens,top,scanned,derives,low⟩,height⟩ := parse_tower (n := 16) (by decide)
    have bound := bounded _ e read ⟨tokens,top,scanned,derives,by omega⟩
    rw [height] at bound
    revert bound
    decide
  · intro square source e _ within
    exact within.height_le.trans square

/-- With seventeen levels a tree is taller than there may be levels. -/
theorem parse_too_tall : ∃ e, parse (String.ofList (Token.towerText 16)) = .ok e ∧
    maxDepth < e.height := by
  obtain ⟨e,read,_,height⟩ := parse_tower (n := 16) (by decide)
  exact ⟨e,read,by rw [height]; decide⟩

end Expr

end ThemeForge
