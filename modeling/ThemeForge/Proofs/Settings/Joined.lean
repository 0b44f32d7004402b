import ThemeForge.Proofs.Settings.Layers
import ThemeForge.Proofs.Settings.Telling
import ThemeForge.Settings.Writing

/-!
# Settings under one another

A blank line keeps two texts apart. What is read behind it is read as it would be alone, on top of
the settings in front, as long as no name of a section is there again. Merging does the same to such
settings, and they are written one under another.
-/

namespace ThemeForge

inductive LineBreak : String → Prop
  | feed : LineBreak "\n"
  | returned : LineBreak "\r\n"

namespace Ordered

variable {α : Type} {table : List (String × α)}

theorem update_fresh (value : Option α → α) (fresh : key ∉ table.map Prod.fst) :
    update key value table = table ++ [(key,value none)] := by
  induction table with
  | nil => rfl
  | cons entry table ih =>
    obtain ⟨other,later⟩ := not_or.mp (mt List.mem_cons.mpr fresh)
    rw [update, if_neg (Ne.symm other), ih later, List.cons_append]

theorem putAll_fresh {entries : List (String × α)}
    (distinct : ((table ++ entries).map Prod.fst).Nodup) :
    putAll table entries = table ++ entries := by
  induction entries generalizing table with
  | nil => rw [List.append_nil]; rfl
  | cons entry entries ih =>
    have fresh : entry.1 ∉ table.map Prod.fst := by
      rw [List.map_append, List.nodup_append] at distinct
      exact fun found => distinct.2.2 _ found _ List.mem_cons_self rfl
    rw [List.append_cons] at distinct ⊢
    rw [putAll, List.foldl_cons, put, update_fresh _ fresh]
    exact ih distinct

end Ordered

namespace Settings

variable {a b s upper : Settings} {text further : String}

theorem names_append (sections others : List (String × List (String × String))) :
    names ⟨sections ++ others⟩ = names ⟨sections⟩ ++ names ⟨others⟩ := List.map_append

/-- Settings without a common name are merged by putting them one behind the other. -/
theorem merge_apart (proper : b.Proper) (apart : ∀ name ∈ a.names, name ∉ b.names) :
    a.merge b = ⟨a.sections ++ b.sections⟩ := by
  obtain ⟨sections⟩ := b
  obtain ⟨distinct,each⟩ := proper
  induction sections generalizing a with
  | nil => simp [merge]
  | cons entry sections ih =>
    obtain ⟨name,entries⟩ := entry
    obtain ⟨different,distinct⟩ := List.nodup_cons.mp distinct
    obtain ⟨first,each⟩ := List.forall_mem_cons.mp each
    have fresh : name ∉ a.names := fun found => apart name found List.mem_cons_self
    have put : Ordered.putAll [] entries = entries := Ordered.putAll_fresh first.options.distinct
    have step : a.merge ⟨(name,entries) :: sections⟩ =
        (⟨a.sections ++ [(name,entries)]⟩ : Settings).merge ⟨sections⟩ := by
      rw [merge, List.foldl_cons]
      simp only [Ordered.update_fresh _ fresh, Option.getD_none, put]
      rfl
    rw [step, ih _ distinct each, List.append_assoc, List.singleton_append]
    intro other found again
    rw [names_append] at found
    rcases List.mem_append.mp found with lower | here
    · exact apart other lower (List.mem_cons_of_mem _ again)
    · obtain rfl := List.mem_singleton.mp here
      exact different again

theorem serialize_append (sections others : List (String × List (String × String))) :
    serialize ⟨sections ++ others⟩ = serialize ⟨sections⟩ ++ serialize ⟨others⟩ := by
  rw [serialize, List.flatMap_append, String.ofList_append]
  rfl

theorem mapLast_append (change : α → α) (front : List α) {l : List α} (some : l ≠ []) :
    mapLast change (front ++ l) = front ++ mapLast change l := by
  rcases List.eq_nil_or_concat l with rfl | ⟨before,last,rfl⟩
  · exact absurd rfl some
  · rw [List.concat_eq_append, ← List.append_assoc, mapLast_concat, mapLast_concat,
      List.append_assoc]

theorem map_mapLast {change : α → α} {g : α → β} (keeps : ∀ a, g (change a) = g a) (l : List α) :
    (mapLast change l).map g = l.map g := by
  rcases List.eq_nil_or_concat l with rfl | ⟨before,last,rfl⟩
  · rfl
  · rw [List.concat_eq_append, mapLast_concat, List.map_append, List.map_append, List.map_singleton,
      List.map_singleton, keeps]

namespace Reading

variable {r after : Reading} {raw : List Char}

theorem line_return (r : Reading) (raw : List Char) : r.line (raw ++ ['\r']) = r.line raw := by
  have indented : isIndented (raw ++ ['\r']) = isIndented raw := by
    cases raw with
    | nil => rfl
    | cons c cs => rfl
  rw [line, line, Text.trim_concat_blank (by decide), indented]

theorem lines_divided (r : Reading) (number : Nat) (divided : Text.Divided ls parts) :
    (r.lines number ls).map settings = (r.lines number parts).map settings := by
  induction divided generalizing r number with
  | nil => rfl
  | ended => rfl
  | @same ls parts raw rest ih =>
    rw [lines, lines]
    split
    · rfl
    · exact ih _ _
  | @returned ls parts raw rest ih =>
    rw [lines, lines, line_return]
    split
    · rfl
    · exact ih _ _

/-- The end of a line keeps what is in front of it apart from what is behind. -/
theorem lines_break (r : Reading) (number : Nat) (front back : List Char)
    (ended : LineBreak ending) :
    r.lines number (Text.splitOn '\n' (front ++ ending.toList ++ back)) =
      r.lines number (Text.splitOn '\n' front ++ Text.splitOn '\n' back) := by
  cases ended with
  | feed =>
    have whole : front ++ "\n".toList ++ back = front ++ '\n' :: back := by simp
    rw [whole, Text.splitOn_append_cons]
  | returned =>
    have whole : front ++ "\r\n".toList ++ back = (front ++ ['\r']) ++ '\n' :: back := by simp
    obtain ⟨before,last,parts,returned⟩ := Text.splitOn_append '\n' front
    have own : Text.splitOn '\n' ['\r'] = [['\r']] := by decide
    rw [whole, Text.splitOn_append_cons, returned, own, parts, List.modifyHead_cons,
      List.append_assoc, List.append_assoc, lines_append, lines_append]
    simp only [List.singleton_append, lines, line_return]

def above (lower : Settings) (r : Reading) : Reading :=
  ⟨⟨lower.sections ++ r.settings.sections⟩,r.continues⟩

theorem openSection_above (lower : Settings) (r : Reading) (name : String) :
    (r.above lower).openSection name = (r.openSection name).above lower := by
  simp [openSection, above]

theorem addOption_above (lower : Settings) (some : r.settings.sections ≠ [])
    (key value : String) :
    (r.above lower).addOption key value = (r.addOption key value).above lower := by
  rw [addOption, above, mapLast_append _ _ some]
  rfl

theorem continueValue_above (lower : Settings) (some : r.settings.sections ≠ []) (line : String) :
    (r.above lower).continueValue line = (r.continueValue line).above lower := by
  rw [continueValue, above, mapLast_append _ _ some]
  rfl

theorem addOption_names (r : Reading) (key value : String) :
    (r.addOption key value).settings.names = r.settings.names :=
  map_mapLast (by intro _; rfl) _

theorem continueValue_names (r : Reading) (line : String) :
    (r.continueValue line).settings.names = r.settings.names :=
  map_mapLast (by intro _; rfl) _

/-- A step of reading that takes no name away, and is the same on top of settings that have none of
the names. -/
structure Framed (step : Reading → Except ε Reading) (r after : Reading) : Prop where
  names : r.settings.names <+: after.settings.names
  above : ∀ lower, (∀ name ∈ lower.names, name ∉ after.settings.names) →
    step (r.above lower) = .ok (after.above lower)

theorem header_framed {cs : List Char} (read : r.header cs = .ok after) :
    Framed (fun r => r.header cs) r after := by
  unfold header at read
  split at read
  · rename_i closed
    dsimp only at read
    split at read
    · simp at read
    · rename_i named
      split at read
      · simp at read
      · rename_i free
        cases read
        have names : (r.openSection (String.ofList cs.dropLast)).settings.names =
            r.settings.names ++ [String.ofList cs.dropLast] := names_append _ _
        refine ⟨names ▸ List.prefix_append _ _,fun lower apart => ?_⟩
        have fresh : (r.above lower).settings.sections.lookup (String.ofList cs.dropLast) = none := by
          refine lookup_none_iff.mpr fun found => ?_
          rw [above, List.map_append] at found
          rcases List.mem_append.mp found with below | here
          · exact apart _ below (by simp [names])
          · exact lookup_none_iff.mp (Option.not_isSome_iff_eq_none.mp free) here
        simp only [header, if_pos closed, if_neg named, fresh, Option.isSome_none,
          Bool.false_eq_true, if_false, openSection_above]
  · simp at read

theorem option_framed {line : List Char} (read : r.option line = .ok after) :
    Framed (fun r => r.option line) r after := by
  unfold option at read
  split at read
  · simp at read
  · rename_i section_ keys last
    split at read
    · simp at read
    · rename_i before value cut
      dsimp only at read
      split at read
      · simp at read
      · rename_i named
        split at read
        · simp at read
        · rename_i free
          cases read
          have some : r.settings.sections ≠ [] := by
            intro none
            simp [none] at last
          refine ⟨?_,fun lower _ => ?_⟩
          · rw [addOption_names]
          · have lastAbove : (r.above lower).settings.sections.getLast? =
                Option.some (section_,keys) := by
              rw [above, List.getLast?_append, last]
              rfl
            simp only [option, lastAbove, cut, if_neg named, if_neg free, addOption_above lower some]

/-- A line is read in the same way on top of settings without its name. -/
theorem line_framed (told : Told r ls) (read : r.line raw = .ok after) :
    Framed (fun r => r.line raw) r after := by
  cases trimmed : Text.trim raw with
  | nil =>
    simp only [line, trimmed] at read
    cases read
    refine ⟨List.prefix_refl _,fun lower _ => ?_⟩
    simp only [line, trimmed]
    rfl
  | cons c rest =>
    by_cases comment : c = '#' ∨ c = ';'
    · simp only [line, trimmed, if_pos comment] at read
      cases read
      refine ⟨List.prefix_refl _,fun lower _ => ?_⟩
      simp only [line, trimmed, if_pos comment]
    · have spoken (r : Reading) : r.line raw =
          if isIndented raw && r.continues then .ok (r.continueValue (String.ofList (c :: rest)))
          else if c = '[' then r.header rest else r.option (c :: rest) := by
        simp only [line, trimmed, if_neg comment]
      simp only [spoken] at read ⊢
      -- Reading goes the same way on top of other settings, which do not change what continues.
      have same (lower : Settings) : (r.above lower).continues = r.continues := rfl
      split at read
      · rename_i inside
        cases read
        obtain ⟨front,name,keys,key,value,sections⟩ := told.last (Bool.and_eq_true _ _ ▸ inside).2
        have some : r.settings.sections ≠ [] := by simp [sections]
        refine ⟨?_,fun lower _ => ?_⟩
        · rw [continueValue_names]
        · rw [same, if_pos inside, continueValue_above lower some]
      · rename_i outside
        split at read
        · rename_i bracket
          obtain ⟨names,framed⟩ := header_framed read
          refine ⟨names,fun lower apart => ?_⟩
          rw [same, if_neg outside, if_pos bracket]
          exact framed lower apart
        · rename_i plain
          obtain ⟨names,framed⟩ := option_framed read
          refine ⟨names,fun lower apart => ?_⟩
          rw [same, if_neg outside, if_neg plain]
          exact framed lower apart

/-- So are several lines, whatever numbers they have. -/
theorem lines_framed {number : Nat} (told : Told r ls) (single : ∀ raw ∈ raws, '\n' ∉ raw)
    (read : r.lines number raws = .ok after) (other : Nat) :
    Framed (fun r => r.lines other raws) r after := by
  induction raws generalizing r ls number other with
  | nil =>
    cases read
    exact ⟨List.prefix_refl _,fun _ _ => rfl⟩
  | cons raw raws ih =>
    obtain ⟨here,others⟩ := List.forall_mem_cons.mp single
    rw [lines] at read
    split at read
    · simp at read
    · rename_i next first
      have step := line_framed told first
      have rest := ih (told.line here first) others read (other + 1)
      refine ⟨step.names.trans rest.names,fun lower apart => ?_⟩
      have stepAbove := step.above lower fun name below found =>
        apart name below (rest.names.subset found)
      rw [lines, stepAbove]
      exact rest.above lower apart

end Reading

theorem parse_divided (text : String) : parse text =
    (Reading.start.lines 1 (Text.splitOn '\n' text.toList)).map Reading.settings :=
  Reading.lines_divided _ _ (Text.lines_divided _)

/-- Two texts that can be read, whose sections have different names, can be read one under the other
with a blank line between them. That gives the settings of the second merged onto those of the first,
which are written one under the other as well. -/
theorem parse_joined {first second : String} (lower : parse text = .ok s)
    (higher : parse further = .ok upper) (apart : ∀ name ∈ s.names, name ∉ upper.names)
    (ended : LineBreak first) (blank : LineBreak second) :
    parse (text ++ first ++ second ++ further) = .ok (s.merge upper) ∧
      (s.merge upper).serialize = s.serialize ++ upper.serialize := by
  rw [merge_apart (parse_proper higher) apart]
  refine ⟨?_,serialize_append _ _⟩
  rw [parse_divided] at lower higher ⊢
  obtain ⟨between,reads,rfl⟩ := map_ok_iff.mp lower
  obtain ⟨after,readsUpper,rfl⟩ := map_ok_iff.mp higher
  have start : Told Reading.start [] := ⟨⟨[],.nil,rfl⟩,by simp [Reading.start]⟩
  have framed := Reading.lines_framed start (fun _ => Text.not_mem_of_mem_splitOn) readsUpper
  have whole : (text ++ first ++ second ++ further).toList =
      text.toList ++ first.toList ++ ([] ++ second.toList ++ further.toList) := by simp
  rw [whole, Reading.lines_break _ _ _ _ ended, Reading.lines_append, reads]
  -- The second line break ends a blank line, so nothing continues behind it.
  have still : between.line [] = .ok (Reading.start.above between.settings) := by
    simp [Reading.line, Text.trim, Text.trimStart, Text.trimEnd, Reading.above, Reading.start,
      Settings.empty]
  simp only [bind, Except.bind]
  rw [Reading.lines_break _ _ _ _ blank]
  simp only [Text.splitOn, List.singleton_append, Reading.lines, still]
  rw [(framed _).above between.settings apart]
  rfl

/-- With no blank line between them the second text goes on with the value at the end. -/
example : parse "[a]\nk=1\n  [b]" = .ok ⟨[("a",[("k","1\n[b]")])]⟩ := by cbv

/-- The first text ends inside a value, the second starts with a comment and an indented header. -/
theorem parse_joined_open :
    parse "[a]\nk=1\n\tx\r" = .ok ⟨[("a",[("k","1\nx")])]⟩ ∧
    parse ";b\n  [b]\nk:2" = .ok ⟨[("b",[("k","2")])]⟩ ∧
    parse "[a]\nk=1\n\tx\r\r\n\n;b\n  [b]\nk:2" =
      .ok ⟨[("a",[("k","1\nx")]),("b",[("k","2")])]⟩ := by
  have lower : parse "[a]\nk=1\n\tx\r" = .ok ⟨[("a",[("k","1\nx")])]⟩ := by cbv
  have higher : parse ";b\n  [b]\nk:2" = .ok ⟨[("b",[("k","2")])]⟩ := by cbv
  exact ⟨lower,higher,(parse_joined lower higher (by decide) .returned .feed).1⟩

end Settings

end ThemeForge
