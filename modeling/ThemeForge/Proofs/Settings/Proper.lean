import ThemeForge.Proofs.Results
import ThemeForge.Proofs.Text.Trimmed
import ThemeForge.Settings.Reading

/-!
# What reading leaves

Names, keys and values that come from a text are of a form that a text can hold again. Reading
gives only such settings, and merging keeps them so.
-/

namespace ThemeForge.Settings

structure ProperTable (p : String × α → Prop) (table : List (String × α)) : Prop where
  distinct : (table.map Prod.fst).Nodup
  each : ∀ entry ∈ table, p entry

/-- A key is found again before a separator: it is trimmed, has none in it and does not start like
a comment or a header. -/
structure ProperKey (key : List Char) : Prop where
  some : key ≠ []
  trimmed : Text.Trimmed key
  single : '\n' ∉ key
  free : ∀ c ∈ key, (c == '=' || c == ':') = false
  first : ∀ c ∈ key.head?, ¬(c = '#' ∨ c = ';') ∧ c ≠ '['

/-- The first line of a value. -/
structure FirstLine (line : List Char) : Prop where
  trimmed : Text.Trimmed line
  single : '\n' ∉ line

structure FurtherLine (line : List Char) : Prop extends FirstLine line where
  some : line ≠ []
  first : ∀ c ∈ line.head?, ¬(c = '#' ∨ c = ';')

/-- A value has a first line and any number of further ones. -/
inductive ProperValue : String → Prop
  | first (single : FirstLine value.toList) : ProperValue value
  | further (before : ProperValue value) (added : FurtherLine line) :
      ProperValue (value ++ "\n" ++ String.ofList line)

structure ProperOption (entry : String × String) : Prop where
  key : ProperKey entry.1.toList
  value : ProperValue entry.2

structure ProperSection (entry : String × List (String × String)) : Prop where
  some : entry.1 ≠ ""
  single : '\n' ∉ entry.1.toList
  options : ProperTable ProperOption entry.2

def Proper (settings : Settings) : Prop := ProperTable ProperSection settings.sections

section Tables

variable {p : String × α → Prop} {table : List (String × α)}

theorem ProperTable.nil : ProperTable p [] := ⟨.nil,nofun⟩

theorem lookup_none_iff {key : String} : table.lookup key = none ↔ key ∉ table.map Prod.fst := by
  rw [List.lookup_eq_none_iff, List.mem_map]
  constructor
  · rintro different ⟨entry,found,rfl⟩
    simpa using different entry found
  · intro absent entry found
    have different : key ≠ entry.1 := fun same => absent ⟨entry,found,same.symm⟩
    simpa using different

theorem nodup_concat {keys : List String} (distinct : keys.Nodup) (other : key ∉ keys) :
    (keys ++ [key]).Nodup :=
  (List.perm_append_singleton key keys).nodup_iff.mpr (List.nodup_cons.mpr ⟨other,distinct⟩)

theorem ProperTable.concat (proper : ProperTable p table) (fresh : table.lookup key = none)
    (entry : p (key,value)) : ProperTable p (table ++ [(key,value)]) := by
  have other := lookup_none_iff.mp fresh
  refine ⟨?_,?_⟩
  · rw [List.map_append]
    exact nodup_concat proper.distinct other
  · intro e found
    rcases List.mem_append.mp found with old | new
    · exact proper.each e old
    · rw [List.mem_singleton.mp new]
      exact entry

theorem ProperTable.fresh {rest : List (String × α)}
    (proper : ProperTable p (table ++ entry :: rest)) : table.lookup entry.1 = none := by
  have distinct := proper.distinct
  rw [List.map_append, List.nodup_append] at distinct
  refine lookup_none_iff.mpr fun found => ?_
  exact distinct.2.2 entry.1 found entry.1 List.mem_cons_self rfl

theorem mapLast_concat (change : β → β) (before : List β) (b : β) :
    mapLast change (before ++ [b]) = before ++ [change b] := by
  induction before with
  | nil => rfl
  | cons c before ih =>
    cases before with
    | nil => rfl
    | cons d before => exact congrArg (c :: ·) ih

theorem ProperTable.mapLast (proper : ProperTable p table)
    {change : String × α → String × α} (key : ∀ entry, (change entry).1 = entry.1)
    (keeps : ∀ entry ∈ table.getLast?, p entry → p (change entry)) :
    ProperTable p (mapLast change table) := by
  rcases List.eq_nil_or_concat table with rfl | ⟨before,last,rfl⟩
  · exact .nil
  · rw [List.concat_eq_append] at proper keeps ⊢
    rw [mapLast_concat]
    refine ⟨?_,?_⟩
    · simpa [key] using proper.distinct
    · intro e found
      rcases List.mem_append.mp found with old | new
      · exact proper.each e (List.mem_append_left _ old)
      · rw [List.mem_singleton.mp new]
        refine keeps last (by simp) (proper.each last ?_)
        exact List.mem_append_right _ (List.mem_singleton_self last)

/-- A change of the entry of a key, or a new one. -/
theorem ProperTable.update (proper : ProperTable p table) {value : Option α → α}
    (new : p (key,value none)) (keeps : ∀ old, p (key,old) → p (key,value (some old))) :
    ProperTable p (Ordered.update key value table) := by
  refine ⟨?_,?_⟩
  · rw [Ordered.map_fst_update]
    split
    · exact proper.distinct
    · rename_i other
      exact nodup_concat proper.distinct other
  · have each := proper.each
    clear proper
    induction table with
    | nil => simpa [Ordered.update] using new
    | cons entry rest ih =>
      obtain ⟨k,old⟩ := entry
      have first : p (k,old) := each (k,old) List.mem_cons_self
      have others : ∀ e ∈ rest, p e := fun e found => each e (List.mem_cons_of_mem _ found)
      intro e found
      rw [Ordered.update] at found
      split at found
      · rename_i same
        rcases List.mem_cons.mp found with rfl | later
        · rw [same] at first ⊢
          exact keeps old first
        · exact others e later
      · rcases List.mem_cons.mp found with rfl | later
        · exact first
        · exact ih others e later

theorem ProperTable.putAll (proper : ProperTable p table) {entries : List (String × α)}
    (each : ∀ entry ∈ entries, p entry) : ProperTable p (Ordered.putAll table entries) := by
  induction entries generalizing table with
  | nil => exact proper
  | cons entry entries ih =>
    have first : p entry := each entry List.mem_cons_self
    refine ih ?_ fun e found => each e (List.mem_cons_of_mem _ found)
    exact proper.update first fun _ _ => first

end Tables

theorem Proper.merge {settings others : Settings} (proper : settings.Proper)
    (properOthers : others.Proper) : (settings.merge others).Proper := by
  have each := properOthers.each
  rw [Proper, Settings.merge]
  generalize others.sections = added at each
  replace proper : ProperTable ProperSection settings.sections := proper
  generalize settings.sections = sections at proper
  induction added generalizing sections with
  | nil => exact proper
  | cons entry added ih =>
    obtain ⟨name,entries⟩ := entry
    have first : ProperSection (name,entries) := each _ List.mem_cons_self
    refine ih (fun e found => each e (List.mem_cons_of_mem _ found)) _ (proper.update ?_ ?_)
    · exact ⟨first.some,first.single,ProperTable.nil.putAll first.options.each⟩
    · intro old existing
      exact ⟨first.some,first.single,existing.options.putAll first.options.each⟩

namespace Reading

variable {r after : Reading}

theorem openSection_proper (proper : r.settings.Proper)
    (fresh : r.settings.sections.lookup name = none) (some : name ≠ "")
    (single : '\n' ∉ name.toList) : (r.openSection name).settings.Proper :=
  ProperTable.concat proper fresh ⟨some,single,.nil⟩

theorem addOption_proper (proper : r.settings.Proper)
    (last : r.settings.sections.getLast? = some (name,keys)) (fresh : keys.lookup key = none)
    (option : ProperOption (key,value)) : (r.addOption key value).settings.Proper := by
  refine ProperTable.mapLast proper (fun _ => rfl) ?_
  intro entry found existing
  rw [last] at found
  cases found
  exact ⟨existing.some,existing.single,existing.options.concat fresh option⟩

theorem continueValue_proper {added : List Char} (proper : r.settings.Proper)
    (further : FurtherLine added) :
    (r.continueValue (String.ofList added)).settings.Proper := by
  refine ProperTable.mapLast proper (fun _ => rfl) ?_
  intro entry _ existing
  refine ⟨existing.some,existing.single,existing.options.mapLast (fun _ => rfl) ?_⟩
  intro option _ old
  exact ⟨old.key,old.value.further further⟩

theorem header_proper (proper : r.settings.Proper) (single : '\n' ∉ afterBracket)
    (read : r.header afterBracket = .ok after) : after.settings.Proper := by
  unfold header at read
  split at read
  · dsimp only at read
    split at read
    · cases read
    · rename_i some
      split at read
      · cases read
      · rename_i fresh
        cases read
        refine openSection_proper proper (Option.not_isSome_iff_eq_none.mp fresh) some ?_
        rw [String.toList_ofList]
        exact fun found => single (List.dropLast_subset _ found)
  · cases read

/-- The text before a separator is a proper key if it is not blank, the text after it one line. -/
theorem split_proper {trimmed before value : List Char} (line : Text.Trimmed trimmed)
    (single : '\n' ∉ trimmed) (first : ∀ c ∈ trimmed.head?, ¬(c = '#' ∨ c = ';') ∧ c ≠ '[')
    (cut : Text.splitFirst? (fun c => c == '=' || c == ':') trimmed = some (before,value))
    (some : Text.trim before ≠ []) :
    ProperKey (Text.trim before) ∧ FirstLine (Text.trim value) := by
  obtain ⟨separator,rfl,_,free⟩ := Text.eq_append_of_splitFirst? cut
  refine ⟨⟨some,Text.trim_trimmed before,?_,?_,?_⟩,⟨Text.trim_trimmed value,?_⟩⟩
  · exact fun found => single (List.mem_append_left _ (Text.mem_of_mem_trim found))
  · exact fun c found => free c (Text.mem_of_mem_trim found)
  · -- The line has no blank in front, so its first character is that of the key.
    cases before with
    | nil => exact absurd rfl some
    | cons c cs =>
      have solid : ∀ d ∈ (c :: cs).head?, Text.isBlank d = false := line.first
      intro d found
      have same : (c :: cs).head? = Option.some d := Text.head?_trim solid found
      exact first d same
  · exact fun found => single (List.mem_append_right _ (List.mem_cons_of_mem _
      (Text.mem_of_mem_trim found)))

theorem option_proper {trimmed : List Char} (proper : r.settings.Proper)
    (line : Text.Trimmed trimmed) (single : '\n' ∉ trimmed)
    (first : ∀ c ∈ trimmed.head?, ¬(c = '#' ∨ c = ';') ∧ c ≠ '[')
    (read : r.option trimmed = .ok after) : after.settings.Proper := by
  unfold option at read
  split at read
  · cases read
  · rename_i last
    split at read
    · cases read
    · rename_i before value cut
      dsimp only at read
      split at read
      · cases read
      · rename_i some
        split at read
        · cases read
        · rename_i fresh
          cases read
          have some : Text.trim before ≠ [] := fun empty => some (by rw [empty])
          obtain ⟨key,oneLine⟩ := split_proper line single first cut some
          have free := Option.not_isSome_iff_eq_none.mp fresh
          refine addOption_proper proper last free ⟨?_,.first ?_⟩
          · rwa [String.toList_ofList]
          · rwa [String.toList_ofList]

theorem line_proper {raw : List Char} (proper : r.settings.Proper) (single : '\n' ∉ raw)
    (read : r.line raw = .ok after) : after.settings.Proper := by
  have trimmed := Text.trim_trimmed raw
  have single : '\n' ∉ Text.trim raw := fun found => single (Text.mem_of_mem_trim found)
  unfold line at read
  split at read
  · cases read
    exact proper
  · rename_i c rest whole
    rw [whole] at trimmed single
    by_cases comment : c = '#' ∨ c = ';'
    · rw [if_pos comment] at read
      cases read
      exact proper
    · rw [if_neg comment] at read
      split at read
      · cases read
        refine continueValue_proper proper ⟨⟨trimmed,single⟩,List.cons_ne_nil c rest,?_⟩
        intro d found
        cases found
        exact comment
      · split at read
        · exact header_proper proper (fun found => single (List.mem_cons_of_mem _ found)) read
        · rename_i bracket
          refine option_proper proper trimmed single ?_ read
          intro d found
          cases found
          exact ⟨comment,bracket⟩

theorem lines_proper {texts : List (List Char)} {number : Nat} (proper : r.settings.Proper)
    (single : ∀ raw ∈ texts, '\n' ∉ raw) (read : r.lines number texts = .ok after) :
    after.settings.Proper := by
  induction texts generalizing r number with
  | nil =>
    cases read
    exact proper
  | cons raw texts ih =>
    rw [lines] at read
    split at read
    · cases read
    · rename_i next first
      have step := line_proper proper (single raw List.mem_cons_self) first
      exact ih step (fun other found => single other (List.mem_cons_of_mem _ found)) read

end Reading

theorem parse_proper {s : Settings} (read : parse text = .ok s) : s.Proper := by
  obtain ⟨after,lines,rfl⟩ := map_ok_iff.mp read
  have start : Reading.start.settings.Proper := ProperTable.nil
  exact Reading.lines_proper start (fun _ => Text.lineFeed_not_mem_of_mem_lines) lines

/-- The settings of a text, or settings merged from such. -/
inductive Merged : Settings → Prop
  | parsed (read : parse text = .ok s) : Merged s
  | merge (lower : Merged s) (upper : Merged s') : Merged (s.merge s')

theorem Merged.proper {s : Settings} (merged : Merged s) : s.Proper := by
  induction merged with
  | parsed read => exact parse_proper read
  | merge _ _ lower upper => exact lower.merge upper

end ThemeForge.Settings
