import ThemeForge.Proofs.Settings.Proper
import ThemeForge.Proofs.Text.Parts
import Mathlib

/-!
# What the lines of a text tell

Every line that is neither blank nor a comment is a header, the line of an option or a further line
of a value. Settings that are read from a text give these lines back in their order. A text that
cannot be read fails at its first malformed line, whatever follows it.
-/

namespace ThemeForge

namespace Text

theorem exists_lines_cons (c : Char) (cs : List Char) :
    ∃ first rest, lines (c :: cs) = first :: rest := by
  rw [lines]
  split
  · exact ⟨_,_,rfl⟩
  · split
    · next ended =>
      obtain ⟨ds,rfl⟩ := List.head?_eq_some_iff.mp ended.2
      exact ⟨_,_,lines_lineFeed ds⟩
    · split <;> exact ⟨_,_,rfl⟩

/-- The first lines of a text are the lines of a front part of it. -/
theorem exists_lines_take (cs : List Char) (n : Nat) :
    ∃ front, front <+: cs ∧ lines front = (lines cs).take n := by
  induction cs generalizing n with
  | nil => exact ⟨[],by simp⟩
  | cons c cs ih =>
    cases n with
    | zero => exact ⟨[],by simp⟩
    | succ n =>
      by_cases feed : c = '\n'
      · obtain ⟨front,prefix_,same⟩ := ih n
        refine ⟨c :: front,by simpa using prefix_,?_⟩
        simp [feed, same]
      · obtain ⟨front,prefix_,same⟩ := ih (n + 1)
        cases cs with
        | nil => exact ⟨[c],by simp,by simp [lines, feed]⟩
        | cons d ds =>
          -- One line at least is taken, so the front part has the next character.
          obtain ⟨first,rest,found⟩ := exists_lines_cons d ds
          obtain ⟨es,rfl⟩ : ∃ es, front = d :: es := by
            cases front with
            | nil => simp [found] at same
            | cons e es => exact ⟨es,by rw [(List.cons_prefix_cons.mp prefix_).1]⟩
          refine ⟨c :: d :: es,by simpa using prefix_,?_⟩
          rw [lines, if_neg feed, same, lines.eq_2 c (d :: ds), if_neg feed, found]
          by_cases ended : c = '\r' ∧ d = '\n' <;> simp [ended]

end Text

namespace Settings

variable {settings : Settings} {ls further : List (List Char)}

/-- Whether a trimmed line is neither empty nor a comment. -/
def speaks (line : List Char) : Bool := line.head?.any fun c => !(c == '#' || c == ';')

/-- The lines that are neither blank nor comments, without the blanks around them. -/
def spoken (ls : List (List Char)) : List (List Char) := (ls.map Text.trim).filter speaks

/-- The lines of an option. The first has the key before its first separator and the first line of
the value behind it, and the further lines of the value follow. -/
def OptionLines (entry : String × String) (ls : List (List Char)) : Prop :=
  ∃ line before after further, ls = line :: further ∧
    Text.splitFirst? (fun c => c == '=' || c == ':') line = some (before,after) ∧
    entry.1.toList = Text.trim before ∧
    Text.splitOn '\n' entry.2.toList = Text.trim after :: further

def SectionLines (entry : String × List (String × String)) (ls : List (List Char)) : Prop :=
  ∃ options, List.Forall₂ OptionLines entry.2 options ∧
    ls = ('[' :: entry.1.toList ++ [']']) :: options.flatten

/-- The lines of settings: those of each section. -/
def Tells (settings : Settings) (ls : List (List Char)) : Prop :=
  ∃ sections, List.Forall₂ SectionLines settings.sections sections ∧ ls = sections.flatten

theorem spoken_append (ls others : List (List Char)) :
    spoken (ls ++ others) = spoken ls ++ spoken others := by
  simp [spoken]

theorem forall₂_concat {R : α → β → Prop} {as : List α} {bs : List β} (all : List.Forall₂ R as bs)
    (last : R a b) : List.Forall₂ R (as ++ [a]) (bs ++ [b]) :=
  List.rel_append all (.cons last .nil)

theorem exists_of_forall₂_concat {R : α → β → Prop} {as : List α} {bs : List β}
    (all : List.Forall₂ R (as ++ [a]) bs) :
    ∃ front b, bs = front ++ [b] ∧ List.Forall₂ R as front ∧ R a b := by
  have back := List.forall₂_reverse_iff.mpr all
  rw [List.reverse_append, List.reverse_singleton, List.singleton_append] at back
  obtain ⟨b,others,last,rest,same⟩ := List.forall₂_cons_left_iff.mp back
  refine ⟨others.reverse,b,?_,?_,last⟩
  · rw [← List.reverse_cons, ← same, List.reverse_reverse]
  · simpa using List.forall₂_reverse_iff.mpr rest

theorem Tells.mapLast {front : List (String × List (String × String))}
    {entry changed : String × List (String × String)} {line : List Char}
    (whole : settings.sections = front ++ [entry]) (tells : settings.Tells ls)
    (more : ∀ ls, SectionLines entry ls → SectionLines changed (ls ++ [line])) :
    Tells ⟨front ++ [changed]⟩ (ls ++ [line]) := by
  obtain ⟨sections,each,rfl⟩ := tells
  rw [whole] at each
  obtain ⟨others,last,rfl,earlier,lines⟩ := exists_of_forall₂_concat each
  exact ⟨others ++ [last ++ [line]],forall₂_concat earlier (more last lines),by simp⟩

theorem Tells.openSection {r : Reading} (tells : r.settings.Tells ls) (name : String) :
    (r.openSection name).settings.Tells (ls ++ ['[' :: name.toList ++ [']']]) := by
  obtain ⟨sections,each,rfl⟩ := tells
  exact ⟨sections ++ [['[' :: name.toList ++ [']']]],
    forall₂_concat each ⟨[],.nil,by simp⟩,by simp⟩

/-- Settings tell the lines read so far, and a value that may go on is there. -/
structure Told (r : Reading) (ls : List (List Char)) : Prop where
  tells : r.settings.Tells ls
  last : r.continues = true → ∃ front name keys key value,
    r.settings.sections = front ++ [(name,keys ++ [(key,value)])]

namespace Told

variable {r after : Reading}

theorem header {rest : List Char} (told : Told r ls) (read : r.header rest = .ok after) :
    Told after (ls ++ ['[' :: rest]) := by
  unfold Reading.header at read
  split at read
  · rename_i closed
    dsimp only at read
    split at read
    · simp at read
    · split at read
      · simp at read
      · cases read
        have whole : '[' :: (String.ofList rest.dropLast).toList ++ [']'] = '[' :: rest := by
          simp [List.dropLast_append_getLast? _ closed]
        have opened := told.tells.openSection (String.ofList rest.dropLast)
        rw [whole] at opened
        refine ⟨opened,?_⟩
        intro continues
        simp [Reading.openSection] at continues
  · simp at read

theorem option {line : List Char} (told : Told r ls) (single : '\n' ∉ line)
    (read : r.option line = .ok after) : Told after (ls ++ [line]) := by
  unfold Reading.option at read
  split at read
  · simp at read
  · rename_i section_ keys last
    split at read
    · simp at read
    · rename_i before value cut
      dsimp only at read
      split at read
      · simp at read
      · split at read
        · simp at read
        · cases read
          obtain ⟨front,sections⟩ : ∃ front, r.settings.sections = front ++ [(section_,keys)] := by
            obtain ⟨front,same⟩ := List.getLast?_eq_some_iff.mp last
            exact ⟨front,same⟩
          have added : (r.addOption (String.ofList (Text.trim before))
              (String.ofList (Text.trim value))).settings.sections =
                front ++ [(section_,keys ++ [(String.ofList (Text.trim before),
                  String.ofList (Text.trim value))])] := by
            simp [Reading.addOption, sections, mapLast_concat]
          have oneLine : '\n' ∉ Text.trim value := by
            obtain ⟨separator,rfl,_⟩ := Text.eq_append_of_splitFirst? cut
            intro found
            exact single (by simp [Text.mem_of_mem_trim found])
          refine ⟨?_,fun _ => ⟨front,section_,keys,_,_,added⟩⟩
          rw [Tells, added]
          refine Tells.mapLast sections told.tells ?_
          rintro _ ⟨options,each,rfl⟩
          refine ⟨options ++ [[line]],forall₂_concat each ?_,by simp⟩
          exact ⟨line,before,value,[],rfl,cut,by simp,by simp [Text.splitOn_free oneLine]⟩

/-- A further line goes to the value that was read last, since there is one. -/
theorem continueValue {line : List Char} (told : Told r ls) (single : '\n' ∉ line)
    (continues : r.continues = true) : Told (r.continueValue (String.ofList line)) (ls ++ [line]) := by
  obtain ⟨front,name,keys,key,value,sections⟩ := told.last continues
  have changed : (r.continueValue (String.ofList line)).settings.sections =
      front ++ [(name,keys ++ [(key,value ++ "\n" ++ String.ofList line)])] := by
    simp [Reading.continueValue, sections, mapLast_concat]
  refine ⟨?_,fun _ => ⟨front,name,keys,key,_,changed⟩⟩
  rw [Tells, changed]
  refine Tells.mapLast sections told.tells ?_
  rintro _ ⟨options,each,rfl⟩
  obtain ⟨others,last,rfl,earlier,first,before,behind,further,rfl,cut,named,parts⟩ :=
    exists_of_forall₂_concat each
  refine ⟨others ++ [first :: (further ++ [line])],forall₂_concat earlier ?_,by simp⟩
  refine ⟨first,before,behind,further ++ [line],rfl,cut,named,?_⟩
  have text : (value ++ "\n" ++ String.ofList line).toList = value.toList ++ '\n' :: line := by
    simp
  rw [text, Text.splitOn_append_cons, parts, Text.splitOn_free single]
  rfl

/-- What one line adds to the settings is the line itself, if it is neither blank nor a comment. -/
theorem line (told : Told r ls) {raw : List Char} (single : '\n' ∉ raw)
    (read : r.line raw = .ok after) : Told after (ls ++ spoken [raw]) := by
  have single : '\n' ∉ Text.trim raw := fun found => single (Text.mem_of_mem_trim found)
  unfold Reading.line at read
  split at read
  · rename_i blank
    cases read
    have silent : spoken [raw] = [] := by simp [spoken, blank, speaks]
    rw [silent, List.append_nil]
    exact ⟨told.tells,by simp⟩
  · rename_i c rest whole
    split at read
    · rename_i comment
      cases read
      have silent : spoken [raw] = [] := by
        rcases comment with rfl | rfl <;> simp [spoken, whole, speaks]
      rwa [silent, List.append_nil]
    · rename_i spoken_
      have told_ : spoken [raw] = [c :: rest] := by
        simp only [not_or] at spoken_
        simp [spoken, whole, speaks, spoken_]
      rw [whole] at single
      rw [told_]
      split at read
      · rename_i inside
        cases read
        simp only [Bool.and_eq_true] at inside
        exact told.continueValue single inside.2
      · split at read
        · rename_i bracket
          rw [bracket]
          exact told.header read
        · exact told.option single read

theorem lines (told : Told r ls) {number : Nat} {raws : List (List Char)}
    (single : ∀ raw ∈ raws, '\n' ∉ raw) (read : r.lines number raws = .ok after) :
    Told after (ls ++ spoken raws) := by
  induction raws generalizing r ls number with
  | nil =>
    cases read
    simpa [spoken] using told
  | cons raw raws ih =>
    obtain ⟨here,others⟩ := List.forall_mem_cons.mp single
    rw [Reading.lines] at read
    split at read
    · simp at read
    · rename_i next first
      have rest := ih (told.line here first) others read
      rwa [List.append_assoc, ← spoken_append] at rest

end Told

namespace Reading

variable {r after : Reading} {number : Nat}

theorem lines_append (r : Reading) (number : Nat) (front back : List (List Char)) :
    r.lines number (front ++ back) =
      r.lines number front >>= fun between => between.lines (number + front.length) back := by
  induction front generalizing r number with
  | nil => rfl
  | cons raw front ih =>
    rw [List.cons_append, lines, lines]
    cases r.line raw with
    | error reason => rfl
    | ok next =>
      simp only [ih, List.length_cons]
      rw [Nat.add_right_comm, Nat.add_assoc]

/-- The reading ends at the first malformed line, which comes after lines that are read. -/
theorem lines_eq_error_iff {raws : List (List Char)} {position : Nat} {reason : Malformed} :
    r.lines number raws = .error (position,reason) ↔
      ∃ front raw back between, raws = front ++ raw :: back ∧ position = number + front.length ∧
        r.lines number front = .ok between ∧ between.line raw = .error reason := by
  constructor
  · intro failed
    induction raws generalizing r number with
    | nil => cases failed
    | cons raw raws ih =>
      rw [lines] at failed
      split at failed
      · rename_i reason' malformed
        cases failed
        exact ⟨[],raw,raws,r,rfl,rfl,rfl,malformed⟩
      · rename_i next first
        obtain ⟨front,raw',back,between,rfl,rfl,read,malformed⟩ := ih failed
        refine ⟨raw :: front,raw',back,between,rfl,?_,?_,malformed⟩
        · simp only [List.length_cons]
          omega
        · rw [lines, first]
          exact read
  · rintro ⟨front,raw,back,between,rfl,rfl,read,malformed⟩
    rw [lines_append, read]
    simp [bind, Except.bind, lines, malformed]

end Reading

/-- The settings that a text gives tell its lines: of those that are neither blank nor comments each
is there once and in order, with nothing else. If there is a malformed line, the lines before the
first one give settings by themselves, and every text that starts with the lines up to it is malformed
there for the same reason. -/
theorem parse_tells (text : String) :
    (∀ settings, parse text = .ok settings → settings.Tells (spoken (Text.lines text.toList))) ∧
      ∀ number reason, parse text = .error (number,reason) →
        0 < number ∧ number ≤ (Text.lines text.toList).length ∧
        (∃ front : String, front.toList <+: text.toList ∧
          Text.lines front.toList = (Text.lines text.toList).take (number - 1) ∧
          ∃ settings, parse front = .ok settings) ∧
        ∀ other : String,
          (Text.lines other.toList).take number = (Text.lines text.toList).take number →
            parse other = .error (number,reason) := by
  refine ⟨?_,?_⟩
  · intro settings read
    obtain ⟨after,lines,rfl⟩ := map_ok_iff.mp read
    have start : Told Reading.start [] := ⟨⟨[],.nil,rfl⟩,by simp [Reading.start]⟩
    have told := start.lines (fun _ => Text.lineFeed_not_mem_of_mem_lines) lines
    simpa using told.tells
  · intro number reason failed
    have stopped : Reading.start.lines 1 (Text.lines text.toList) = .error (number,reason) := by
      unfold parse at failed
      cases outcome : Reading.start.lines 1 (Text.lines text.toList) with
      | error fault => simpa [outcome, Except.map] using failed
      | ok after => simp [outcome, Except.map] at failed
    obtain ⟨front,raw,back,between,whole,rfl,read,malformed⟩ :=
      Reading.lines_eq_error_iff.mp stopped
    have taken : (Text.lines text.toList).take (1 + front.length) = front ++ [raw] := by
      rw [whole, Nat.add_comm, List.take_length_add_append]
      rfl
    refine ⟨by omega,by simp [whole]; omega,?_,?_⟩
    · obtain ⟨before,prefix_,same⟩ := Text.exists_lines_take text.toList front.length
      rw [whole, List.take_left] at same
      refine ⟨String.ofList before,by simpa using prefix_,by simp [whole, same],between.settings,?_⟩
      rw [parse, String.toList_ofList, same, read]
      rfl
    · intro other alike
      rw [taken] at alike
      have split := List.take_append_drop (1 + front.length) (Text.lines other.toList)
      rw [alike, List.append_assoc] at split
      have again := Reading.lines_eq_error_iff.mpr
        ⟨front,raw,_,between,split.symm,rfl,read,malformed⟩
      rw [parse, again]
      rfl

def noted : String := "[colors]\nback : a=b\n  ; dark\n\tmore\n\ntext=\n"

def notedSettings : Settings := ⟨[("colors",[("back","a=b\nmore"),("text","")])]⟩

/-- A comment does not end a value; a second line for a key is malformed wherever the text goes on. -/
theorem noted_tells :
    (parse noted = .ok notedSettings ∧ notedSettings.Tells
        ["[colors]".toList,"back : a=b".toList,"more".toList,"text=".toList]) ∧
      parse (noted ++ "back=\n[new]") = .error (7,.optionExists "back" "colors") ∧
      parse (noted ++ "back=\n;") = .error (7,.optionExists "back" "colors") := by
  have read : parse noted = .ok notedSettings := by cbv
  have failed : parse (noted ++ "back=\n[new]") = .error (7,.optionExists "back" "colors") := by cbv
  have tells := (parse_tells noted).1 notedSettings read
  obtain ⟨_,_,_,always⟩ := (parse_tells (noted ++ "back=\n[new]")).2 _ _ failed
  have lines : spoken (Text.lines noted.toList) =
      ["[colors]".toList,"back : a=b".toList,"more".toList,"text=".toList] := by cbv
  exact ⟨⟨read,lines ▸ tells⟩,failed,always _ (by cbv)⟩

end Settings

end ThemeForge
