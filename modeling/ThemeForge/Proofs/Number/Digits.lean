import ThemeForge.Number.Bytes
import ThemeForge.Proofs.Expression.Relaid
import ThemeForge.Proofs.Text.Words
import Mathlib

/-!
# Numbers and their digits

The bytes of a number are its digits to the base 256. Digits that are turned round and read again lose
the zeros that come first. Decimal numbers are found again in a text that has nothing but blanks
between them.
-/

namespace ThemeForge.Number

variable {ds : List Nat} {cs w : List Char} {c : Char}

theorem littleBytes_eq (n : Nat) : littleBytes n = Nat.digits 256 n := by
  induction n using littleBytes.induct with
  | case1 => simp
  | case2 n some ih =>
    rw [littleBytes_of_pos (Nat.pos_of_ne_zero some), ih,
      ← Nat.digits_eq_cons_digits_div (by decide) some]

theorem bigBytes_eq (n : Nat) : bigBytes n = (Nat.digits 256 n).reverse := by
  rw [bigBytes, littleBytes_eq]

theorem append_littleBytes {n : Nat} (nonzero : n ≠ 0) (front : List Nat) :
    front ++ littleBytes n = front ++ [n % 256] ++ littleBytes (n / 256) := by
  rw [littleBytes_of_pos (Nat.pos_of_ne_zero nonzero), List.append_assoc, List.singleton_append]

theorem ofBigBytes_eq (ds : List Nat) : ofBigBytes ds = Nat.ofDigits 256 ds.reverse := by
  induction ds using List.reverseRecOn with
  | nil => rfl
  | append_singleton ds d ih =>
    rw [ofBigBytes_append, ih, List.reverse_concat, Nat.ofDigits_cons, Nat.mul_comm, Nat.add_comm]

theorem ofDigits_reverse_le (ds rest : List Nat) :
    Nat.ofDigits 256 ds.reverse ≤ Nat.ofDigits 256 (ds ++ rest).reverse := by
  rw [List.reverse_append, Nat.ofDigits_append]
  exact Nat.le_add_left_of_le (Nat.le_mul_of_pos_left _ (by positivity))

theorem ofBigBytes_le (ds rest : List Nat) : ofBigBytes ds ≤ ofBigBytes (ds ++ rest) := by
  rw [ofBigBytes_eq, ofBigBytes_eq]
  exact ofDigits_reverse_le ds rest

/-- The highest digit comes first once zeros are left out. -/
theorem digits_ofDigits_reverse (each : ∀ d ∈ ds, d < 256) :
    (Nat.digits 256 (Nat.ofDigits 256 ds.reverse)).reverse = ds.dropWhile (· = 0) := by
  induction ds with
  | nil => rfl
  | cons d ds ih =>
    obtain ⟨_,others⟩ := List.forall_mem_cons.mp each
    by_cases zero : d = 0
    · rw [zero, Nat.ofDigits_reverse_zero_cons, ih others, List.dropWhile_cons_of_pos (by simp)]
    · rw [List.dropWhile_cons_of_neg (by simpa using zero), Nat.digits_ofDigits 256 (by decide),
        List.reverse_reverse]
      · exact fun l member => each l (List.mem_reverse.mp member)
      · simpa using zero

theorem ofDigits_dropWhile_le (ds : List Nat) :
    Nat.ofDigits 256 (ds.dropWhile (· = 0)) ≤ Nat.ofDigits 256 ds := by
  induction ds with
  | nil => exact Nat.le_refl _
  | cons d ds ih =>
    by_cases zero : d = 0
    · rw [zero, List.dropWhile_cons_of_pos (by simp), Nat.ofDigits_cons]
      omega
    · rw [List.dropWhile_cons_of_neg (by simpa using zero)]

theorem ofDigits_digits_reverse_lt (n : Nat) :
    Nat.ofDigits 256 (Nat.digits 256 n).reverse < 256 ^ (Nat.digits 256 n).length := by
  rw [← List.length_reverse]
  exact Nat.ofDigits_lt_base_pow_length (by decide) fun d member =>
    Nat.digits_lt_base (by decide) (List.mem_reverse.mp member)

/-- A number that is turned round leaves the range of a word if its lowest digit becomes the highest of
eight and is too large for that. -/
theorem ofDigits_digits_reverse_lt_iff {n : Nat} (small : n < 2 ^ 63) :
    Nat.ofDigits 256 (Nat.digits 256 n).reverse < 2 ^ 63 ↔ ¬(2 ^ 56 ≤ n ∧ 128 ≤ n % 256) := by
  by_cases few : n < 2 ^ 56
  · have seven : (Nat.digits 256 n).length ≤ 7 :=
      (Nat.digits_length_le_iff (by decide) n).mpr (by simpa using few)
    have bound := (ofDigits_digits_reverse_lt n).trans_le
      (Nat.pow_le_pow_right (by decide) seven)
    omega
  · have seven : (Nat.digits 256 (n / 256)).length = 7 := by
      have most : (Nat.digits 256 (n / 256)).length ≤ 7 :=
        (Nat.digits_length_le_iff (by decide) _).mpr (by omega)
      have least : 6 < (Nat.digits 256 (n / 256)).length :=
        (Nat.lt_digits_length_iff (by decide) _).mpr (by omega)
      omega
    have bound := ofDigits_digits_reverse_lt (n / 256)
    rw [Nat.digits_eq_cons_digits_div (by decide) (by omega), List.reverse_cons,
      Nat.ofDigits_append, List.length_reverse, seven, Nat.ofDigits_singleton]
    rw [seven] at bound
    omega

theorem lt_ten_of_digit (digit : c.isDigit = true) : c.toNat - '0'.toNat < 10 := by
  obtain ⟨_,high⟩ := by simpa [Char.isDigit, UInt32.le_iff_toNat_le] using digit
  have last : c.toNat ≤ 57 := high
  have zero : '0'.toNat = 48 := rfl
  omega

theorem ofBase?_digits (nonempty : cs ≠ []) (each : ∀ c ∈ cs, c.isDigit = true) :
    ofBase? 10 cs = some (Nat.ofDigitChars 10 cs 0) := by
  rw [ofBase?, if_neg nonempty]
  clear nonempty
  generalize 0 = n
  induction cs generalizing n with
  | nil => rfl
  | cons c cs ih =>
    obtain ⟨digit,others⟩ := List.forall_mem_cons.mp each
    have value : digitValue? c = some (c.toNat - '0'.toNat) := if_pos digit
    have step : (do
        let d ← digitValue? c
        if d < 10 then some (n * 10 + d) else none) = some (10 * n + (c.toNat - '0'.toNat)) := by
      rw [value, Nat.mul_comm]
      exact if_pos (lt_ten_of_digit digit)
    rw [List.foldlM_cons, step]
    exact ih others _

theorem ofBase?_toString (n : Nat) : ofBase? 10 (toString n).toList = some n := by
  have digits : (toString n).toList = Nat.toDigits 10 n := Nat.toList_repr
  rw [digits, ofBase?_digits Nat.toDigits_ne_nil fun c member =>
    Nat.isDigit_of_mem_toDigits (by decide) (by decide) member, Nat.ofDigitChars_ten_toDigits]

theorem toString_ne_nil (n : Nat) : (toString n).toList ≠ [] := by
  rw [show (toString n).toList = Nat.toDigits 10 n from Nat.toList_repr]
  exact Nat.toDigits_ne_nil

theorem toString_solid (n : Nat) : ∀ c ∈ (toString n).toList, Text.isBlank c = false := by
  rw [show (toString n).toList = Nat.toDigits 10 n from Nat.toList_repr]
  intro c member
  have digit := Nat.isDigit_of_mem_toDigits (by decide) (by decide) member
  by_contra blank
  simp [Token.not_digit_of_blank (by simpa using blank)] at digit

/-- Decimal numbers with a space between them are the words of the text. -/
theorem words_intercalate (ns : List Nat) :
    Text.words (String.intercalate " " (ns.map toString)).toList =
      ns.map fun n => (toString n).toList := by
  rw [String.toList_intercalate, List.map_map]
  refine Text.words_intercalate rfl fun w member => ?_
  obtain ⟨n,_,rfl⟩ := List.mem_map.mp member
  exact ⟨toString_ne_nil n,toString_solid n⟩

/-- The whole numbers that the words of a text are in decimal. -/
def decimals? (text : String) : Option (List Int64) :=
  (Text.words text.toList).mapM fun word => (ofBase? 10 word).bind fun n => fit? n

/-- Numbers that fit words are read from a text as they are written there. -/
theorem decimals?_intercalate {ns : List Nat} {words : List Int64}
    (each : List.Forall₂ (fun (n : Nat) (w : Int64) => w.toInt = n) ns words) :
    decimals? (String.intercalate " " (ns.map toString)) = some words := by
  rw [decimals?, words_intercalate]
  induction each with
  | nil => rfl
  | @cons n w ns words same _ ih =>
    have first : ((ofBase? 10 (toString n).toList).bind fun n => fit? n) = some w := by
      rw [ofBase?_toString]
      exact fit?_eq_some_iff.mpr same
    rw [List.map_cons, List.mapM_cons, first, ih]
    rfl

end ThemeForge.Number
