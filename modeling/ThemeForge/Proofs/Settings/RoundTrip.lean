import ThemeForge.Proofs.Settings.Proper
import ThemeForge.Settings.Writing
import Mathlib

/-!
# Settings written and read back

The lines written for proper settings are read, one after another, as what they were written for.
-/

namespace ThemeForge.Settings

/-- A text of whole lines takes one state of reading to another, whatever text follows. -/
def Reads (text : List Char) (r after : Reading) : Prop :=
  ∀ number rest, ∃ next,
    r.lines number (Text.lines (text ++ rest)) = after.lines next (Text.lines rest)

theorem Reads.nil (r : Reading) : Reads [] r r := fun number _ => ⟨number,rfl⟩

theorem Reads.append {r between after : Reading} (first : Reads text r between)
    (second : Reads further between after) : Reads (text ++ further) r after := by
  intro number rest
  obtain ⟨middle,readFirst⟩ := first number (further ++ rest)
  obtain ⟨next,readSecond⟩ := second middle rest
  refine ⟨next,?_⟩
  rw [List.append_assoc, readFirst, readSecond]

theorem Reads.line {r after : Reading} {raw : List Char} (single : '\n' ∉ raw)
    (kept : raw.getLast? ≠ some '\r') (read : r.line raw = .ok after) :
    Reads (raw ++ ['\n']) r after := by
  intro number rest
  refine ⟨number + 1,?_⟩
  rw [List.append_assoc, List.singleton_append, Text.lines_line single kept, Reading.lines, read]

theorem indented_append (text others : List Char) :
    indented (text ++ others) = indented text ++ indented others := by
  induction text with
  | nil => rfl
  | cons c cs ih =>
    rw [List.cons_append, indented, indented, ih]
    split <;> rfl

theorem indented_line {text : List Char} (single : '\n' ∉ text) : indented text = text := by
  induction text with
  | nil => rfl
  | cons c cs ih =>
    have other : c ≠ '\n' := fun same => single (same ▸ List.mem_cons_self)
    rw [indented, if_neg other, ih fun found => single (List.mem_cons_of_mem _ found)]

theorem mapLast_mapLast (change again : β → β) (l : List β) :
    mapLast again (mapLast change l) = mapLast (again ∘ change) l := by
  rcases List.eq_nil_or_concat l with rfl | ⟨before,last,rfl⟩
  · rfl
  · rw [List.concat_eq_append, mapLast_concat, mapLast_concat, mapLast_concat]
    rfl

namespace Reading

theorem continueValue_addOption (r : Reading) (key value added : String) :
    (r.addOption key value).continueValue added = r.addOption key (value ++ "\n" ++ added) := by
  unfold continueValue addOption
  rw [mapLast_mapLast]
  congr 3
  funext entry
  exact congrArg (entry.1,·) (mapLast_concat _ _ _)

variable {r : Reading}

/-- A line that is neither blank nor a comment and is not indented is a header or an option. -/
theorem line_outside {raw rest : List Char} (trimmed : Text.trim raw = c :: rest)
    (comment : ¬(c = '#' ∨ c = ';')) (outside : isIndented raw = false) :
    r.line raw = if c = '[' then r.header rest else r.option (c :: rest) := by
  simp only [line, trimmed, if_neg comment, outside, Bool.false_and, Bool.false_eq_true, if_false]

/-- An indented line after an option goes on with its value, if it is no comment. -/
theorem line_further {raw rest : List Char} (trimmed : Text.trim raw = c :: rest)
    (comment : ¬(c = '#' ∨ c = ';')) (inside : isIndented raw = true)
    (continues : r.continues = true) :
    r.line raw = .ok (r.continueValue (String.ofList (c :: rest))) := by
  simp only [line, trimmed, if_neg comment, inside, continues, Bool.and_self, if_true]

theorem not_indented {line : List Char} (front : ∀ c ∈ line.head?, Text.isBlank c = false) :
    isIndented line = false := by
  cases line with
  | nil => rfl
  | cons c cs =>
    have solid : Text.isBlank c = false := front c rfl
    have space : c ≠ ' ' := by
      rintro rfl
      revert solid
      decide
    have tab : c ≠ '\t' := by
      rintro rfl
      revert solid
      decide
    simp [isIndented, space, tab]

theorem header_line {name : List Char} (some : name ≠ [])
    (fresh : r.settings.sections.lookup (String.ofList name) = none) :
    r.line ('[' :: name ++ [']']) = .ok (r.openSection (String.ofList name)) := by
  have trimmed : Text.Trimmed ('[' :: name ++ [']']) := by
    refine ⟨?_,?_⟩
    · intro c found
      cases found
      decide
    · intro c found
      rw [List.getLast?_concat] at found
      cases found
      decide
  have named : String.ofList name ≠ "" := by simpa using some
  have whole : Text.trim ('[' :: name ++ [']']) = '[' :: (name ++ [']']) := Text.trim_eq trimmed
  rw [line_outside whole (by decide) (not_indented trimmed.first), if_pos rfl]
  rw [header, if_pos List.getLast?_concat]
  simp only [List.dropLast_concat, if_neg named, fresh, Option.isSome_none, Bool.false_eq_true,
    if_false]

theorem option_trimmed {key value : List Char} (proper : ProperKey key)
    (oneLine : FirstLine value) : Text.Trimmed (key ++ '=' :: value) := by
  refine ⟨?_,?_⟩
  · intro c found
    obtain ⟨d,ds,rfl⟩ := List.exists_cons_of_ne_nil proper.some
    exact proper.trimmed.first c found
  · intro c found
    rw [List.getLast?_append_cons] at found
    cases value with
    | nil =>
      cases found
      decide
    | cons v vs => exact oneLine.trimmed.last c found

/-- The first line of a key is read as that key. -/
theorem option_line {key value : List Char} (proper : ProperKey key) (oneLine : FirstLine value)
    (last : r.settings.sections.getLast? = some (name,keys))
    (fresh : keys.lookup (String.ofList key) = none) :
    r.line (key ++ '=' :: value) = .ok (r.addOption (String.ofList key) (String.ofList value)) := by
  have trimmed := option_trimmed proper oneLine
  have cut := Text.splitFirst?_append proper.free (by rfl : ('=' == '=' || '=' == ':') = true) value
  have named : String.ofList key ≠ "" := by simpa using proper.some
  obtain ⟨c,cs,rfl⟩ := List.exists_cons_of_ne_nil proper.some
  obtain ⟨comment,bracket⟩ := proper.first c rfl
  have whole : Text.trim (c :: cs ++ '=' :: value) = c :: (cs ++ '=' :: value) :=
    Text.trim_eq trimmed
  rw [line_outside whole comment (not_indented trimmed.first), if_neg bracket]
  rw [option, last]
  simp only [← List.cons_append, cut, Text.trim_eq proper.trimmed, Text.trim_eq oneLine.trimmed,
    if_neg named, fresh, Option.isSome_none, Bool.false_eq_true, if_false]

theorem further_line {added : List Char} (proper : FurtherLine added)
    (continues : r.continues = true) :
    r.line ('\t' :: added) = .ok (r.continueValue (String.ofList added)) := by
  have trimmed : Text.trim ('\t' :: added) = added := by
    rw [Text.trim_cons_blank (by decide), Text.trim_eq proper.trimmed]
  obtain ⟨c,cs,rfl⟩ := List.exists_cons_of_ne_nil proper.some
  exact line_further trimmed (proper.first c rfl) rfl continues

theorem option_reads {entry : String × String} (proper : ProperOption entry)
    (last : r.settings.sections.getLast? = some (name,keys))
    (fresh : keys.lookup entry.1 = none) :
    Reads (writeOption entry) r (r.addOption entry.1 entry.2) := by
  obtain ⟨key,value⟩ := entry
  obtain ⟨properKey,properValue⟩ := proper
  dsimp only at properKey properValue fresh ⊢
  -- Each further line of the value is one more line after those that the induction has read.
  induction properValue with
  | first oneLine =>
    rename_i value
    have read := option_line (r := r) properKey oneLine last (by rwa [String.ofList_toList])
    rw [String.ofList_toList, String.ofList_toList] at read
    rw [writeOption, indented_line oneLine.single]
    refine Reads.line ?_ (option_trimmed properKey oneLine).no_return read
    simp [properKey.single, oneLine.single]
  | further before added ih =>
    rename_i value line
    have read := further_line (r := r.addOption key value) added rfl
    rw [continueValue_addOption] at read
    have whole : writeOption (key,value ++ "\n" ++ String.ofList line) =
        writeOption (key,value) ++ ('\t' :: line ++ ['\n']) := by
      simp [writeOption, indented_append, indented, indented_line added.single]
    rw [whole]
    refine ih.append (Reads.line ?_ ?_ read)
    · simp [added.single]
    · rw [List.getLast?_cons_of_ne_nil added.some]
      exact added.trimmed.no_return

/-- The lines of several keys are read as these keys, after those that the section has. -/
theorem options_reads {options : List (String × String)}
    (proper : ProperTable ProperOption (keys ++ options))
    (last : r.settings.sections = before ++ [(name,keys)]) :
    ∃ after, Reads (options.flatMap writeOption) r after ∧
      after.settings.sections = before ++ [(name,keys ++ options)] := by
  induction options generalizing r keys with
  | nil => exact ⟨r,.nil r,by rw [last, List.append_nil]⟩
  | cons entry options ih =>
    have here : ProperOption entry := proper.each entry (by simp)
    have read := option_reads here (by rw [last, List.getLast?_concat]) proper.fresh
    have added : (r.addOption entry.1 entry.2).settings.sections =
        before ++ [(name,keys ++ [entry])] := by
      rw [addOption, last, mapLast_concat]
    rw [List.append_cons] at proper
    obtain ⟨after,others,sections⟩ := ih proper added
    refine ⟨after,read.append others,?_⟩
    rw [sections, List.append_assoc, List.singleton_append]

theorem section_reads {entry : String × List (String × String)} (proper : ProperSection entry)
    (fresh : r.settings.sections.lookup entry.1 = none) :
    Reads (writeSection entry) r ⟨⟨r.settings.sections ++ [entry]⟩,false⟩ := by
  obtain ⟨name,keys⟩ := entry
  have some : name.toList ≠ [] := fun empty => proper.some (String.toList_eq_nil_iff.mp empty)
  have header : Reads ('[' :: name.toList ++ [']'] ++ ['\n']) r (r.openSection name) := by
    have read := header_line (r := r) some (by rwa [String.ofList_toList])
    rw [String.ofList_toList] at read
    refine Reads.line ?_ ?_ read
    · simp [proper.single]
    · rw [List.getLast?_concat]
      decide
  have none : ProperTable ProperOption ([] ++ keys) := proper.options
  obtain ⟨after,options,sections⟩ := options_reads (r := r.openSection name) none rfl
  have blank : Reads ([] ++ ['\n']) after { after with continues := false } :=
    Reads.line (by simp) nofun rfl
  have whole := (header.append options).append blank
  have settings : after.settings = ⟨r.settings.sections ++ [(name,keys)]⟩ :=
    congrArg Settings.mk sections
  rw [settings] at whole
  simpa [writeSection] using whole

theorem sections_reads {sections : List (String × List (String × String))}
    (proper : ProperTable ProperSection (r.settings.sections ++ sections)) :
    ∃ after, Reads (sections.flatMap writeSection) r after ∧
      after.settings.sections = r.settings.sections ++ sections := by
  induction sections generalizing r with
  | nil => exact ⟨r,.nil r,by rw [List.append_nil]⟩
  | cons entry sections ih =>
    have here : ProperSection entry := proper.each entry (by simp)
    have fresh : r.settings.sections.lookup entry.1 = none := proper.fresh
    rw [List.append_cons] at proper
    obtain ⟨after,others,whole⟩ := ih (r := ⟨⟨r.settings.sections ++ [entry]⟩,false⟩) proper
    refine ⟨after,(section_reads here fresh).append others,?_⟩
    rw [whole, List.append_assoc, List.singleton_append]

end Reading

/-- Proper settings are read back from the text that is written for them. -/
theorem Proper.parse_serialize {s : Settings} (proper : s.Proper) :
    parse s.serialize = .ok s := by
  have all : ProperTable ProperSection (Reading.start.settings.sections ++ s.sections) := proper
  obtain ⟨after,reads,whole⟩ := Reading.sections_reads all
  obtain ⟨next,read⟩ := reads 1 []
  have same : after.settings = s := congrArg Settings.mk whole
  rw [List.append_nil] at read
  rw [parse, serialize, String.toList_ofList, read, Text.lines_nil, Reading.lines, Except.map, same]

/-- Settings of a text, and settings merged from such, are read back from the text that is written
for them. -/
theorem parse_serialize_merged {s : Settings} (merged : Merged s) :
    parse s.serialize = .ok s := merged.proper.parse_serialize

def plainColors : Settings := ⟨[("colors",[("back","1\n2"),("text","3")])]⟩

def darkColors : Settings := ⟨[("fonts",[]),("colors",[("back","\n[4]")])]⟩

theorem parse_plainColors : parse "[colors]\nback = 1\n  2\ntext: 3\n" = .ok plainColors := by
  cbv

theorem parse_darkColors : parse "[fonts]\n\n[colors]\nback=\n\t[4]" = .ok darkColors := by
  cbv

theorem parse_serialize_colors : Merged (plainColors.merge darkColors) ∧
    parse (plainColors.merge darkColors).serialize = .ok (plainColors.merge darkColors) := by
  have merged : Merged (plainColors.merge darkColors) :=
    .merge (.parsed parse_plainColors) (.parsed parse_darkColors)
  exact ⟨merged,parse_serialize_merged merged⟩

end ThemeForge.Settings
