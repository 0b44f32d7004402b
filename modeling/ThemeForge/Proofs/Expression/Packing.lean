import ThemeForge.Expression.Packing
import ThemeForge.Proofs.Number.Digits
import ThemeForge.Proofs.Results
import Mathlib

/-!
# Bytes packed into numbers and taken out of them

Packing checks the range after each byte, and the number only grows: so it is refused at the first
element that is no byte or takes what was read so far out of the range. A number's listing and the number
with its bytes in reverse are told by its digits to the base 256.
-/

namespace ThemeForge.Packing

def IsByte (b : Int64) : Prop := 0 ≤ b.toInt ∧ b.toInt ≤ 255

def digits (bytes : List Int64) : List Nat := bytes.map fun b => b.toInt.toNat

/-- The number with the given digits to the base 256, the highest first. -/
def number (bytes : List Int64) : Nat := Nat.ofDigits 256 (digits bytes).reverse

/-- What can be packed. -/
structure Accepted (bytes : List Int64) : Prop where
  each : ∀ b ∈ bytes, IsByte b
  small : number bytes < 2 ^ 63

/-- What cannot be packed, and why: before the first element that is at fault all can be packed, and it is
no byte or else takes the number out of the range. -/
inductive Refused : List Int64 → Fault → Prop
  | byte (accepted : Accepted front) (other : ¬IsByte b) :
      Refused (front ++ b :: rest) (.byteRange .hex b)
  | overflow (accepted : Accepted front) (byte : IsByte b) (large : 2 ^ 63 ≤ number (front ++ [b])) :
      Refused (front ++ b :: rest) .overflow

variable {b : Int64} {bytes front rest : List Int64} {value v w : Int64} {fault : Fault} {i : Int}

theorem byte_eq_ok_iff : byte function b = .ok i ↔ IsByte b ∧ b.toInt = i := by
  unfold byte IsByte
  split <;> simp_all

theorem byte_eq_error_iff : byte function b = .error fault ↔
    ¬IsByte b ∧ fault = .byteRange function b := by
  unfold byte IsByte
  split <;> simp_all [eq_comm]

theorem digits_lt (each : ∀ b ∈ bytes, IsByte b) : ∀ d ∈ digits bytes, d < 256 := by
  intro d member
  obtain ⟨b,within,rfl⟩ := List.mem_map.mp member
  have low := (each b within).2
  omega

theorem number_concat (bytes : List Int64) (b : Int64) :
    number (bytes ++ [b]) = number bytes * 256 + b.toInt.toNat := by
  simp [number, digits, Nat.ofDigits_cons, Nat.mul_comm, Nat.add_comm]

theorem number_le (front rest : List Int64) : number front ≤ number (front ++ rest) := by
  rw [number, number, digits, digits, List.map_append]
  exact Number.ofDigits_reverse_le _ _

theorem accepted_nil : Accepted [] := ⟨nofun,by decide⟩

theorem Accepted.concat_iff : Accepted (bytes ++ [b]) ↔
    Accepted bytes ∧ IsByte b ∧ number (bytes ++ [b]) < 2 ^ 63 := by
  constructor
  · intro accepted
    obtain ⟨each,last⟩ := List.forall_mem_append.mp accepted.each
    exact ⟨⟨each,(number_le bytes [b]).trans_lt accepted.small⟩,by simpa using last,accepted.small⟩
  · rintro ⟨accepted,byte,small⟩
    exact ⟨List.forall_mem_append.mpr ⟨accepted.each,by simpa using byte⟩,small⟩

theorem Refused.append (refused : Refused bytes fault) (rest : List Int64) :
    Refused (bytes ++ rest) fault := by
  cases refused with
  | byte accepted other =>
    rw [List.append_assoc, List.cons_append]
    exact .byte accepted other
  | overflow accepted byte large =>
    rw [List.append_assoc, List.cons_append]
    exact .overflow accepted byte large

theorem accepted_or_refused (bytes : List Int64) :
    Accepted bytes ∨ ∃ fault, Refused bytes fault := by
  induction bytes using List.reverseRecOn with
  | nil => exact .inl accepted_nil
  | append_singleton bytes b ih =>
    rcases ih with accepted | ⟨fault,refused⟩
    · by_cases byte : IsByte b
      · by_cases small : number (bytes ++ [b]) < 2 ^ 63
        · exact .inl (Accepted.concat_iff.mpr ⟨accepted,byte,small⟩)
        · exact .inr ⟨_,.overflow accepted byte (Nat.le_of_not_lt small)⟩
      · exact .inr ⟨_,.byte accepted byte⟩
    · exact .inr ⟨fault,refused.append [b]⟩

theorem appendBytes_append (value : Int64) (front rest : List Int64) :
    appendBytes value (front ++ rest) = appendBytes value front >>= (appendBytes · rest) := by
  induction front generalizing value with
  | nil => rfl
  | cons b front ih =>
    rw [List.cons_append, appendBytes, appendBytes]
    cases byte .hex b with
    | error fault => rfl
    | ok i =>
      simp only [bind, Except.bind] at ih ⊢
      cases Number.fit? (value.toInt * 256 + i) with
      | none => rfl
      | some value => exact ih value

theorem appendBytes_cons (byte : IsByte b) (value : Int64) (rest : List Int64) :
    appendBytes value (b :: rest) =
      match Number.fit? (value.toInt * 256 + b.toInt) with
      | some value => appendBytes value rest
      | none => .error .overflow := by
  rw [appendBytes, byte_eq_ok_iff.mpr ⟨byte,rfl⟩]
  rfl

theorem appendBytes_cons_error (other : ¬IsByte b) (value : Int64) (rest : List Int64) :
    appendBytes value (b :: rest) = .error (.byteRange .hex b) := by
  rw [appendBytes, byte_eq_error_iff.mpr ⟨other,rfl⟩]
  rfl

theorem number_step (read : value.toInt = number front) (byte : IsByte b) :
    value.toInt * 256 + b.toInt = number (front ++ [b]) := by
  have low := byte.1
  rw [read, number_concat]
  omega

theorem inWord_natCast {n : Nat} (small : n < 2 ^ 63) : Number.InWord n :=
  Number.inWord_iff.mpr (by omega)

theorem Accepted.ofBytes (accepted : Accepted bytes) :
    ∃ w, ofBytes bytes = .ok w ∧ w.toInt = number bytes := by
  induction bytes using List.reverseRecOn with
  | nil => exact ⟨0,rfl,rfl⟩
  | append_singleton bytes b ih =>
    obtain ⟨before,byte,small⟩ := concat_iff.mp accepted
    obtain ⟨value,done,read⟩ := ih before
    obtain ⟨w,fits,stands⟩ := Number.exists_fit? (inWord_natCast small)
    refine ⟨w,?_,stands⟩
    unfold Packing.ofBytes at done ⊢
    rw [appendBytes_append, done]
    change appendBytes value [b] = .ok w
    rw [appendBytes_cons byte, number_step read byte, fits]
    rfl

theorem Refused.ofBytes (refused : Refused bytes fault) : ofBytes bytes = .error fault := by
  cases refused with
  | byte accepted other =>
    obtain ⟨value,done,_⟩ := accepted.ofBytes
    unfold Packing.ofBytes at done ⊢
    rw [appendBytes_append, done]
    exact appendBytes_cons_error other _ _
  | @overflow front b rest accepted byte large =>
    obtain ⟨value,done,read⟩ := accepted.ofBytes
    have outside : Number.fit? (value.toInt * 256 + b.toInt) = none := by
      rw [number_step read byte, Number.fit?_eq_none_iff, Number.inWord_iff]
      omega
    unfold Packing.ofBytes at done ⊢
    rw [appendBytes_append, done]
    change appendBytes value (b :: rest) = .error .overflow
    rw [appendBytes_cons byte, outside]

theorem ofBytes_eq_ok_iff : ofBytes bytes = .ok w ↔ Accepted bytes ∧ w.toInt = number bytes := by
  rcases accepted_or_refused bytes with accepted | ⟨fault,refused⟩
  · obtain ⟨v,done,read⟩ := accepted.ofBytes
    rw [done, and_iff_right accepted, ← read, Int64.toInt_inj]
    exact ⟨fun same => (Except.ok.inj same).symm,fun same => congrArg _ same.symm⟩
  · have failed := refused.ofBytes
    constructor
    · simp [failed]
    · rintro ⟨accepted,_⟩
      obtain ⟨v,done,_⟩ := accepted.ofBytes
      simp [failed] at done

theorem ofBytes_eq_error_iff : ofBytes bytes = .error fault ↔ Refused bytes fault := by
  refine ⟨fun failed => ?_,Refused.ofBytes⟩
  rcases accepted_or_refused bytes with accepted | ⟨other,refused⟩
  · obtain ⟨v,done,_⟩ := accepted.ofBytes
    simp [failed] at done
  · rw [refused.ofBytes] at failed
    exact Except.error.inj failed ▸ refused

/-! The way back: a number that is not negative is listed, and its bytes are read from the text. -/

theorem natural_nonnegative (nonnegative : 0 ≤ v.toInt) : natural function v = .ok v.toInt.toNat :=
  if_neg (by omega)

theorem listing_nonnegative (nonnegative : 0 ≤ v.toInt) : listing v = .ok
    (String.intercalate " " ((Nat.digits 256 v.toInt.toNat).reverse.map toString)) := by
  rw [listing, natural_nonnegative nonnegative, ← Number.bigBytes_eq]
  rfl

theorem decimals?_digits (each : ∀ b ∈ bytes, IsByte b) :
    Number.decimals? (String.intercalate " " ((digits bytes).map toString)) = some bytes := by
  apply Number.decimals?_intercalate
  rw [digits, List.forall₂_map_left_iff, List.forall₂_same]
  intro b member
  have low := (each b member).1
  omega

theorem digits_dropWhile (bytes : List Int64) (each : ∀ b ∈ bytes, IsByte b) :
    digits (bytes.dropWhile (· = 0)) = (digits bytes).dropWhile (· = 0) := by
  induction bytes with
  | nil => rfl
  | cons b bytes ih =>
    obtain ⟨byte,others⟩ := List.forall_mem_cons.mp each
    by_cases zero : b = 0
    · have first : b.toInt.toNat = 0 := by simp [zero]
      rw [List.dropWhile_cons_of_pos (by simpa using zero), ih others, digits, digits, List.map_cons,
        List.dropWhile_cons_of_pos (by simpa using first)]
    · have first : b.toInt.toNat ≠ 0 := by
        intro none
        have low := byte.1
        exact zero (Int64.toInt_inj.mp (show b.toInt = 0 by omega))
      rw [List.dropWhile_cons_of_neg (by simpa using zero), digits, List.map_cons,
        List.dropWhile_cons_of_neg (by simpa using first)]

theorem exists_bytes {ds : List Nat} (each : ∀ d ∈ ds, d < 256) :
    ∃ bytes, (∀ b ∈ bytes, IsByte b) ∧ digits bytes = ds := by
  induction ds with
  | nil => exact ⟨[],nofun,rfl⟩
  | cons d ds ih =>
    obtain ⟨first,others⟩ := List.forall_mem_cons.mp each
    obtain ⟨bytes,all,same⟩ := ih others
    obtain ⟨b,_,read⟩ := Number.exists_fit? (inWord_natCast (n := d) (by omega))
    refine ⟨b :: bytes,List.forall_mem_cons.mpr ⟨⟨by omega,by omega⟩,all⟩,?_⟩
    rw [← same, digits, digits, List.map_cons, read, Int.toNat_natCast]

theorem listing_of_ofBytes (packed : ofBytes bytes = .ok w) : ∃ text, listing w = .ok text ∧
    Number.decimals? text = some (bytes.dropWhile (· = 0)) := by
  obtain ⟨accepted,read⟩ := ofBytes_eq_ok_iff.mp packed
  refine ⟨_,listing_nonnegative (by omega),?_⟩
  rw [read, Int.toNat_natCast, number, Number.digits_ofDigits_reverse (digits_lt accepted.each),
    ← digits_dropWhile bytes accepted.each]
  apply decimals?_digits
  exact fun b member => accepted.each b ((List.dropWhile_sublist _).mem member)

theorem ofBytes_of_listing (nonnegative : 0 ≤ v.toInt) : ∃ text bytes, listing v = .ok text ∧
    Number.decimals? text = some bytes ∧ ofBytes bytes = .ok v := by
  have low : ∀ d ∈ (Nat.digits 256 v.toInt.toNat).reverse, d < 256 := fun d member =>
    Nat.digits_lt_base (by decide) (List.mem_reverse.mp member)
  obtain ⟨bytes,each,same⟩ := exists_bytes low
  have whole : number bytes = v.toInt.toNat := by
    rw [number, same, List.reverse_reverse, Nat.ofDigits_digits]
  have range := v.toInt_lt
  refine ⟨_,bytes,listing_nonnegative nonnegative,?_,?_⟩
  · rw [← same]
    exact decimals?_digits each
  · exact ofBytes_eq_ok_iff.mpr ⟨⟨each,by omega⟩,by omega⟩

/-- Packing gives the number that the bytes stand for, or refuses them at the first one at fault. It and
listing are inverse to each other, but for zeros in front. -/
theorem ofBytes_inverts_listing (bytes : List Int64) :
    ((∃ w, ofBytes bytes = .ok w) ↔ Accepted bytes) ∧
      (∀ w, ofBytes bytes = .ok w → w.toInt = number bytes ∧ ∃ text, listing w = .ok text ∧
        Number.decimals? text = some (bytes.dropWhile (· = 0))) ∧
      (∀ fault, ofBytes bytes = .error fault ↔ Refused bytes fault) ∧
      ∀ v : Int64, 0 ≤ v.toInt → ∃ text decimals, listing v = .ok text ∧
        Number.decimals? text = some decimals ∧ ofBytes decimals = .ok v := by
  refine ⟨⟨?_,?_⟩,?_,?_,fun v => ofBytes_of_listing⟩
  · rintro ⟨w,packed⟩
    exact (ofBytes_eq_ok_iff.mp packed).1
  · intro accepted
    obtain ⟨w,packed,_⟩ := accepted.ofBytes
    exact ⟨w,packed⟩
  · intro w packed
    exact ⟨(ofBytes_eq_ok_iff.mp packed).2,listing_of_ofBytes packed⟩
  · exact fun fault => ofBytes_eq_error_iff

theorem padded_listing :
    ofBytes [0,0,1,0,255] = .ok 65791 ∧
      (∃ text, listing 65791 = .ok text ∧ Number.decimals? text = some [1,0,255]) ∧
      0 ≤ Int64.maxValue.toInt ∧ ∃ text decimals, listing Int64.maxValue = .ok text ∧
        Number.decimals? text = some decimals ∧ ofBytes decimals = .ok Int64.maxValue := by
  obtain ⟨_,listed,_,back⟩ := ofBytes_inverts_listing [0,0,1,0,255]
  have packed : ofBytes [0,0,1,0,255] = .ok 65791 := by rfl
  have largest : 0 ≤ Int64.maxValue.toInt := by decide
  exact ⟨packed,(listed 65791 packed).2,largest,back _ largest⟩

/-! The number with the bytes of another one in reverse. -/

/-- The number with the digits of another one to the base 256, of which the lowest comes first. -/
def mirror (n : Nat) : Nat := Nat.ofDigits 256 (Nat.digits 256 n).reverse

/-- The number without the digits at its low end that are zero. -/
def raised (n : Nat) : Nat := Nat.ofDigits 256 ((Nat.digits 256 n).dropWhile (· = 0))

/-- Zeros at the low end come first once the digits are turned round, and are lost. -/
theorem mirror_mirror (n : Nat) : mirror (mirror n) = raised n := by
  have each : ∀ d ∈ Nat.digits 256 n, d < 256 := fun d => Nat.digits_lt_base (by decide)
  rw [mirror, mirror, Number.digits_ofDigits_reverse each, raised]

theorem raised_le (n : Nat) : raised n ≤ n := by
  have bound := Number.ofDigits_dropWhile_le (Nat.digits 256 n)
  rwa [Nat.ofDigits_digits] at bound

theorem reversed_step {front : List Nat} (read : value.toInt = Number.ofBigBytes front) (d : Nat) :
    value.toInt * 256 + d = Number.ofBigBytes (front ++ [d]) := by
  rw [read, Number.ofBigBytes_append]
  norm_cast

/-- The range is looked at after each byte, but the number only grows: all steps stay in the range exactly
if the last one does. -/
theorem appendReversed_eq {front : List Nat} {n : Nat} (read : value.toInt = Number.ofBigBytes front) :
    (appendReversed value n).map Value.int =
      Value.whole (Number.ofBigBytes (front ++ Number.littleBytes n)) := by
  induction value, n using appendReversed.induct generalizing front with
  | case1 value =>
    rw [appendReversed_zero, Number.littleBytes_zero, List.append_nil]
    exact (Value.whole_eq_int_iff.mpr read).symm
  | case2 value n nonzero next fits ih =>
    have step : next.toInt = Number.ofBigBytes (front ++ [n % 256]) := by
      rw [Number.fit?_eq_some_iff.mp fits, reversed_step read]
    rw [appendReversed_some nonzero fits, ih step, Number.append_littleBytes nonzero]
  | case3 value n nonzero outside =>
    have grows := Number.ofBigBytes_le (front ++ [n % 256]) (Number.littleBytes (n / 256))
    rw [appendReversed_none nonzero outside, Number.append_littleBytes nonzero,
      Value.whole_eq_overflow]
    · rfl
    · rw [reversed_step read, Number.fit?_eq_none_iff, Number.inWord_iff] at outside
      rw [Number.inWord_iff]
      omega

theorem reversed_eq {n : Nat} (stands : v.toInt = n) : reversed v = Value.whole (mirror n) := by
  have start : (0 : Int64).toInt = Number.ofBigBytes [] := rfl
  rw [mirror, ← Number.littleBytes_eq, ← Number.ofBigBytes_eq, ← List.nil_append (Number.littleBytes n),
    ← appendReversed_eq start, reversed, natural_nonnegative (by omega), stands]
  rfl

theorem exists_reversed {n : Nat} (stands : v.toInt = n) (small : mirror n < 2 ^ 63) :
    ∃ w, reversed v = .ok (.int w) ∧ w.toInt = mirror n := by
  rw [reversed_eq stands]
  exact Value.exists_whole (inWord_natCast small)

theorem reversed_overflow {n : Nat} (stands : v.toInt = n) (large : 2 ^ 63 ≤ mirror n) :
    reversed v = .error .overflow := by
  rw [reversed_eq stands]
  apply Value.whole_eq_overflow
  rw [Number.inWord_iff]
  omega

/-- Reversing gives the number with the bytes turned round if it is in the range. Done again, it gives the
first one without its low zeros. -/
theorem reversed_mirrors {n : Nat} (stands : v.toInt = n) :
    (mirror n < 2 ^ 63 → ∃ w, reversed v = .ok (.int w) ∧ w.toInt = mirror n) ∧
      (2 ^ 63 ≤ mirror n → reversed v = .error .overflow) ∧
      (2 ^ 63 ≤ mirror n ↔ 2 ^ 56 ≤ n ∧ 128 ≤ n % 256) ∧
      ∀ result, reversed v = .ok result → ∃ w u, result = .int w ∧
        reversed w = .ok (.int u) ∧ u.toInt = raised n := by
  have range := v.toInt_lt
  have turned := Number.ofDigits_digits_reverse_lt_iff (n := n) (by omega)
  refine ⟨exists_reversed stands,reversed_overflow stands,?_,?_⟩
  · rw [← Nat.not_lt, mirror, turned, not_not]
  · intro result done
    by_cases small : mirror n < 2 ^ 63
    · obtain ⟨w,same,mirrored⟩ := exists_reversed stands small
      have less := raised_le n
      obtain ⟨u,again,back⟩ := exists_reversed mirrored (by rw [mirror_mirror]; omega)
      rw [same] at done
      exact ⟨w,u,(Except.ok.inj done).symm,again,by rw [back, mirror_mirror]⟩
    · simp [reversed_overflow stands (by omega)] at done

/-- A zero at the low end is lost, and a low byte that is too large for the highest one is refused. -/
theorem reversed_twice :
    (0x0102000000000300 : Int64).toInt = (0x0102000000000300 : Nat) ∧
      (∃ w u, reversed 0x0102000000000300 = .ok (.int w) ∧ reversed w = .ok (.int u) ∧
        u.toInt = 0x01020000000003) ∧
      (0x0100000000000080 : Int64).toInt = (0x0100000000000080 : Nat) ∧
      reversed 0x0100000000000080 = .error .overflow := by
  have first : (0x0102000000000300 : Int64).toInt = (0x0102000000000300 : Nat) := by decide
  have second : (0x0100000000000080 : Int64).toInt = (0x0100000000000080 : Nat) := by decide
  obtain ⟨small,_,bound,twice⟩ := reversed_mirrors first
  obtain ⟨_,large,bound',_⟩ := reversed_mirrors second
  have below : mirror 0x0102000000000300 < 2 ^ 63 := by
    rw [← Nat.not_le, bound]
    decide
  obtain ⟨w,done,_⟩ := small below
  obtain ⟨_,u,same,again,back⟩ := twice _ done
  obtain rfl := Value.int.inj same
  refine ⟨first,⟨w,u,done,again,?_⟩,second,large (bound'.mpr (by decide))⟩
  simp [back, raised, Nat.ofDigits]

end ThemeForge.Packing
