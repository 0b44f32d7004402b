import ThemeForge.Proofs.Expression.Ending
import Mathlib

/-!
# Blanks between tokens

A blank ends whatever token stands before it, so a text with blanks in the middle has the tokens of
its two parts. What goes wrong behind the blanks goes wrong there in the same way, only further on.
-/

namespace ThemeForge

/-- A fault of a text that stands behind some bytes. -/
def Fault.behind (bytes : Nat) : Fault → Fault
  | .unexpectedChar char offset => .unexpectedChar char (offset + bytes)
  | fault => fault

namespace Token

open Text

variable {a b w : String} {c d quote : Char} {cs body rest : List Char} {m n : Nat}
  {token : Token} {tokens : List Token}

theorem byteLength_append (cs rest : List Char) :
    byteLength (cs ++ rest) = byteLength cs + byteLength rest := by
  induction cs with
  | nil => simp [byteLength]
  | cons c cs ih => rw [List.cons_append, byteLength, byteLength, ih, Nat.add_assoc]

theorem byteLength_le_of_suffix (suffix : rest <:+ cs) : byteLength rest ≤ byteLength cs := by
  obtain ⟨front,rfl⟩ := suffix
  rw [byteLength_append]
  exact Nat.le_add_left _ _

theorem byteLength_toList (s : String) : byteLength s.toList = s.utf8ByteSize := by
  have size (cs : List Char) : byteLength cs = String.utf8Len cs := by
    induction cs with
    | nil => rfl
    | cons c cs ih => rw [byteLength, ih, String.utf8Len_cons, Nat.add_comm]
  rw [size, ← String.utf8ByteSize_ofList, String.ofList_toList]

theorem ends_blank (blank : isBlank d = true) : Ends d where
  number := not_inNumber_of_blank blank
  unsigned := by
    rintro (sign | sign)
    all_goals exact ne_of_blank blank (by decide) sign
  name := not_inName_of_blank blank

/-- The tokens of what stands before a blank come before the tokens behind it. -/
theorem scanFrom_before_blank (read : scanFrom m cs = .ok tokens) (blank : isBlank d = true)
    (n : Nat) (rest : List Char) :
    scanFrom n (cs ++ d :: rest) = (scanFrom n rest).map (tokens ++ ·) := by
  induction size : cs.length using Nat.strongRecOn generalizing cs tokens with
  | ind size shorter =>
    subst size
    cases cs with
    | nil =>
      rw [scanFrom] at read
      cases read
      rw [List.nil_append, scanFrom_cons, if_pos blank]
      cases scanFrom n rest <;> rfl
    | cons c cs =>
      rw [scanFrom_cons] at read
      rw [List.cons_append, scanFrom_cons]
      split at read
      · next skipped =>
        rw [if_pos skipped]
        exact shorter cs.length (by simp) read rfl
      · next solid =>
        rw [if_neg solid]
        rcases found : first m c cs with fault | ⟨token,after⟩
        · rw [found] at read
          cases read
        · rw [found] at read
          obtain ⟨others,later,rfl⟩ := map_ok_iff.mp read
          have fewer := length_first found
          rw [first_append (ends_blank blank) found]
          dsimp only
          rw [shorter after.length (by rw [List.length_cons]; omega) later rfl]
          cases scanFrom n rest <;> rfl

theorem quotedText?_suffix (closed : quotedText? quote cs = some (body,rest)) : rest <:+ cs := by
  fun_induction quotedText? quote cs generalizing body rest with
  | case1 => cases closed
  | case2 cs =>
    cases closed
    exact List.suffix_cons _ _
  | case3 => cases closed
  | case4 d cs other ih =>
    obtain ⟨⟨inside,behind⟩,found,same⟩ := Option.map_eq_some_iff.mp closed
    cases same
    exact ((ih found).trans (List.suffix_cons _ _)).trans (List.suffix_cons _ _)
  | case5 c cs inside plain ih =>
    obtain ⟨⟨inside',behind⟩,found,same⟩ := Option.map_eq_some_iff.mp closed
    cases same
    exact (ih found).trans (List.suffix_cons _ _)

theorem first_suffix (found : first n c cs = .ok (token,rest)) : rest <:+ c :: cs := by
  unfold first at found
  split at found
  · cases found
    exact List.suffix_cons _ _
  · split at found
    · split at found
      · rename_i closed
        cases found
        exact (quotedText?_suffix closed).trans (List.suffix_cons _ _)
      · cases found
    · split at found
      · split at found
        · cases found
          exact ⟨_,numberRun_append (c :: cs)⟩
        · cases found
      · split at found
        · cases found
          exact (List.dropWhile_suffix _).trans (List.suffix_cons _ _)
        · cases found

/-- In a longer expression a token at its end is the same, and a fault is further on. -/
theorem first_behind (inside : byteLength (c :: cs) ≤ n) (bytes : Nat) :
    first (n + bytes) c cs = (first n c cs).mapError (Fault.behind bytes) := by
  unfold first
  split
  · rfl
  · split
    · split <;> rfl
    · split
      · split <;> rfl
      · split
        · rfl
        · rw [Nat.sub_add_comm inside]
          rfl

theorem scanFrom_behind (inside : byteLength cs ≤ n) (bytes : Nat) :
    scanFrom (n + bytes) cs = (scanFrom n cs).mapError (Fault.behind bytes) := by
  induction size : cs.length using Nat.strongRecOn generalizing cs with
  | ind size shorter =>
    subst size
    cases cs with
    | nil =>
      rw [scanFrom, scanFrom]
      rfl
    | cons c cs =>
      rw [scanFrom_cons, scanFrom_cons]
      split
      · have less := byteLength_le_of_suffix (List.suffix_cons c cs)
        exact shorter cs.length (by simp) (less.trans inside) rfl
      · rw [first_behind inside]
        rcases found : first n c cs with fault | ⟨token,after⟩
        · rfl
        · have fewer := length_first found
          have less := byteLength_le_of_suffix (first_suffix found)
          have further := shorter after.length (by rw [List.length_cons]; omega)
            (less.trans inside) rfl
          simp only [Except.mapError, further]
          cases scanFrom n after <;> rfl

/-- Blanks between two texts keep their tokens apart. If the second text has no tokens, it has none
behind the first one for the same reason, further on by the bytes before it. -/
theorem scan_spaced (scanned : scan a = .ok tokens) (some : w ≠ "")
    (blank : ∀ c ∈ w.toList, isBlank c = true) (b : String) :
    scan (a ++ w ++ b) = ((scan b).map (tokens ++ ·)).mapError
      (Fault.behind (a.utf8ByteSize + w.utf8ByteSize)) ∧
    ∀ others, scan b = .ok others →
      Expr.parse (a ++ w ++ b) = Expr.ofTokens (tokens ++ others) := by
  have whole : scan (a ++ w ++ b) = ((scan b).map (tokens ++ ·)).mapError
      (Fault.behind (a.utf8ByteSize + w.utf8ByteSize)) := by
    obtain ⟨d,blanks,cut⟩ := List.exists_cons_of_ne_nil (mt String.toList_eq_nil_iff.mp some)
    obtain ⟨first,others⟩ := List.forall_mem_cons.mp (cut ▸ blank)
    have total : byteLength (a ++ w ++ b).toList =
        byteLength b.toList + (a.utf8ByteSize + w.utf8ByteSize) := by
      rw [byteLength_toList, byteLength_toList, String.utf8ByteSize_append,
        String.utf8ByteSize_append, Nat.add_comm]
    rw [scan, total, String.toList_append, String.toList_append, cut, List.append_assoc,
      List.cons_append, scanFrom_before_blank scanned first, scanFrom_blank_append others,
      scanFrom_behind (Nat.le_refl _), ← scan]
    cases scan b <;> rfl
  refine ⟨whole,fun others read => ?_⟩
  rw [Expr.parse, whole, read]
  rfl

theorem scan_quoted : scan "c('é'" = .ok [.name "c",.leftParen,.text "é"] := by cbv

theorem scan_sum : scan "+1" = .ok [.plus,.int 1] := by cbv

theorem scan_percent : scan "+%" = .error (.unexpectedChar '%' 1) := by cbv

/-- A text with a quote at its end, and behind an em space a sign and what is a token or is not. -/
theorem quoted_spaced :
    scan "c('é'" = .ok [.name "c",.leftParen,.text "é"] ∧ "\u2003" ≠ "" ∧
    (∀ c ∈ "\u2003".toList, isBlank c = true) ∧
    scan ("c('é'" ++ "\u2003" ++ "+1") = .ok [.name "c",.leftParen,.text "é",.plus,.int 1] ∧
    scan "+%" = .error (.unexpectedChar '%' 1) ∧
    scan ("c('é'" ++ "\u2003" ++ "+%") = .error (.unexpectedChar '%' 10) := by
  have blank : ∀ c ∈ "\u2003".toList, isBlank c = true := by
    intro c found
    obtain rfl : c = '\u2003' := by simpa using found
    decide
  have spaced (b : String) := (scan_spaced scan_quoted (by decide) blank b).1
  refine ⟨scan_quoted,by decide,blank,?_,scan_percent,?_⟩
  · rw [spaced, scan_sum]
    rfl
  · rw [spaced, scan_percent]
    rfl

end Token

end ThemeForge
