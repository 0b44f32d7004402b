import ThemeForge.Proofs.Files.Plain
import ThemeForge.Proofs.Settings.Compiled

/-!
# Settings in layers

Fragments, and overrides above them, are layers of settings. A key has the value of the highest
layer that gives it one, and names stay in the order in which the layers first have them.
-/

namespace ThemeForge

section FirstSeen

variable {α : Type} [DecidableEq α]

/-- A further member is seen for the first time, or it was there before. -/
theorem eraseDups_concat (l : List α) (a : α) :
    (l ++ [a]).eraseDups = if a ∈ l then l.eraseDups else l.eraseDups ++ [a] := by
  rw [List.eraseDups_append]
  by_cases seen : a ∈ l
  · simp [List.removeAll, seen]
  · simp [List.removeAll, seen, List.eraseDups_cons]

theorem nodup_eraseDups (l : List α) : l.eraseDups.Nodup := by
  induction l using List.reverseRecOn with
  | nil => simp
  | append_singleton l a ih =>
    rw [eraseDups_concat]
    split
    · exact ih
    · rename_i fresh
      rw [← List.concat_eq_append]
      exact ih.concat (mt List.mem_eraseDups.mp fresh)

theorem eraseDups_eq {l : List α} (distinct : l.Nodup) : l.eraseDups = l := by
  induction l using List.reverseRecOn with
  | nil => simp
  | append_singleton l a ih =>
    obtain ⟨front,_,apart⟩ := List.nodup_append.mp distinct
    have fresh : a ∉ l := fun found => apart a found a (List.mem_singleton_self a) rfl
    rw [eraseDups_concat, if_neg fresh, ih front]

/-- What comes later is first seen where it is first seen there, if not before. -/
theorem eraseDups_append_eraseDups (l later : List α) :
    (l ++ later.eraseDups).eraseDups = (l ++ later).eraseDups := by
  induction later using List.reverseRecOn with
  | nil => simp
  | append_singleton later a ih =>
    rw [eraseDups_concat, ← List.append_assoc, eraseDups_concat]
    by_cases again : a ∈ later
    · rw [if_pos again, if_pos (List.mem_append_right l again), ih]
    · have same : a ∈ l ++ later.eraseDups ↔ a ∈ l ++ later := by
        simp only [List.mem_append, List.mem_eraseDups]
      rw [if_neg again, ← List.append_assoc, eraseDups_concat, ih]
      simp only [same]

end FirstSeen

namespace Ordered

variable {α β : Type} {table : List (String × α)}

/-- Keys stay where they first came. -/
theorem map_fst_updates {before : List String} (value : String × β → Option α → α)
    (entries : List (String × β)) (seen : table.map Prod.fst = before.eraseDups) :
    (entries.foldl (fun t e => update e.1 (value e) t) table).map Prod.fst =
      (before ++ entries.map Prod.fst).eraseDups := by
  induction entries generalizing table before with
  | nil => simpa using seen
  | cons entry entries ih =>
    have step : (update entry.1 (value entry) table).map Prod.fst =
        (before ++ [entry.1]).eraseDups := by
      rw [map_fst_update, seen, eraseDups_concat]
      simp only [List.mem_eraseDups]
    rw [List.foldl_cons, ih step, List.map_cons, List.append_assoc, List.singleton_append]

theorem lookup_updates (table : List (String × α)) (value : String × β → Option α → α)
    {entries : List (String × β)} (distinct : (entries.map Prod.fst).Nodup) (k : String) :
    (entries.foldl (fun t e => update e.1 (value e) t) table).lookup k =
      ((entries.lookup k).map fun b => value (k,b) (table.lookup k)).or (table.lookup k) := by
  induction entries generalizing table with
  | nil => simp
  | cons entry entries ih =>
    obtain ⟨key,b⟩ := entry
    obtain ⟨other,distinct⟩ := List.nodup_cons.mp distinct
    rw [List.foldl_cons, ih _ distinct, lookup_update, List.lookup_cons]
    by_cases here : k = key
    · subst here
      simp [Settings.lookup_none_iff.mpr other]
    · have no : (k == key) = false := by simpa using here
      simp [here, no]

/-- The values of the entries that are put come first. -/
theorem lookup_putAll (table : List (String × α)) {entries : List (String × α)}
    (distinct : (entries.map Prod.fst).Nodup) (k : String) :
    (putAll table entries).lookup k = (entries.lookup k).or (table.lookup k) := by
  have changed := lookup_updates table (fun (e : String × α) _ => e.2) distinct k
  rwa [Option.map_id'] at changed

theorem map_fst_putAll {before : List String} (entries : List (String × α))
    (seen : table.map Prod.fst = before.eraseDups) :
    (putAll table entries).map Prod.fst = (before ++ entries.map Prod.fst).eraseDups :=
  map_fst_updates (fun e _ => e.2) entries seen

/-- Tables with the same keys in the same order and the same values are the same. -/
theorem eq_of_lookup {others : List (String × α)} (distinct : (table.map Prod.fst).Nodup)
    (keys : table.map Prod.fst = others.map Prod.fst)
    (values : ∀ k, table.lookup k = others.lookup k) : table = others := by
  induction table generalizing others with
  | nil => exact (List.map_eq_nil_iff.mp keys.symm).symm
  | cons entry table ih =>
    cases others with
    | nil => cases keys
    | cons other others =>
      obtain ⟨key,value⟩ := entry
      obtain ⟨key',value'⟩ := other
      obtain ⟨first,rest⟩ := List.cons.inj keys
      obtain ⟨fresh,distinct⟩ := List.nodup_cons.mp distinct
      replace first : key = key' := first
      subst first
      have here := values key
      rw [List.lookup_cons_self, List.lookup_cons_self] at here
      rw [Option.some.inj here, ih distinct rest]
      intro k
      by_cases same : k = key
      · rw [same, Settings.lookup_none_iff.mpr fresh, Settings.lookup_none_iff.mpr (rest ▸ fresh)]
      · have no : (k == key) = false := by simpa using same
        have further := values k
        rwa [List.lookup_cons, List.lookup_cons, no] at further

end Ordered

namespace Settings

def names (s : Settings) : List String := s.sections.map Prod.fst

def keys (s : Settings) (name : String) : List String :=
  ((s.sections.lookup name).getD []).map Prod.fst

/-- No section occurs twice, and no key twice in a section. -/
structure Distinct (s : Settings) : Prop where
  names : s.names.Nodup
  keys : ∀ name, (s.keys name).Nodup

variable {a b c s : Settings}

theorem keys_eq {entries : List (String × String)} (found : s.sections.lookup name = some entries) :
    s.keys name = entries.map Prod.fst := by
  rw [keys, found]
  rfl

theorem keys_nil (absent : s.sections.lookup name = none) : s.keys name = [] := by
  rw [keys, absent]
  rfl

theorem Proper.distinct (proper : s.Proper) : s.Distinct := by
  refine ⟨ProperTable.distinct proper,fun name => ?_⟩
  cases found : s.sections.lookup name with
  | none => simp [keys_nil found]
  | some entries =>
    rw [keys_eq found]
    exact (ProperTable.each proper _ (exists_of_lookup found)).options.distinct

/-- Settings with the same names in the same order and the same values are the same. -/
theorem Distinct.eq (distinct : a.Distinct) (names : a.names = b.names)
    (keys : ∀ name, a.keys name = b.keys name)
    (values : ∀ name key, a.get? name key = b.get? name key) : a = b := by
  have sections : ∀ name, a.sections.lookup name = b.sections.lookup name := by
    intro name
    have present : name ∈ a.names ↔ name ∈ b.names := by rw [names]
    cases found : a.sections.lookup name with
    | none =>
      have absent := lookup_none_iff.mp found
      exact (lookup_none_iff.mpr fun other => absent (present.mpr other)).symm
    | some entries =>
      cases found' : b.sections.lookup name with
      | none =>
        have absent := lookup_none_iff.mp found'
        exact absurd (present.mp (List.mem_map_of_mem (exists_of_lookup found))) absent
      | some entries' =>
        have sameKeys := keys name
        rw [keys_eq found, keys_eq found'] at sameKeys
        refine congrArg some (Ordered.eq_of_lookup ?_ sameKeys fun key => ?_)
        · rw [← keys_eq found]
          exact distinct.keys name
        · have same := values name key
          rwa [get?, get?, found, found'] at same
  have same := Ordered.eq_of_lookup distinct.names names sections
  cases a
  cases b
  exact congrArg Settings.mk same

theorem lookup_merge (distinct : b.names.Nodup) (name : String) :
    (a.merge b).sections.lookup name =
      ((b.sections.lookup name).map fun entries =>
        Ordered.putAll ((a.sections.lookup name).getD []) entries).or (a.sections.lookup name) :=
  Ordered.lookup_updates a.sections
    (fun (e : String × List (String × String)) old => Ordered.putAll (old.getD []) e.2) distinct name

theorem names_merge {before : List String} (seen : a.names = before.eraseDups) :
    (a.merge b).names = (before ++ b.names).eraseDups :=
  Ordered.map_fst_updates
    (fun (e : String × List (String × String)) old => Ordered.putAll (old.getD []) e.2) b.sections
    seen

theorem keys_merge {before : List String} (distinct : b.Distinct)
    (seen : a.keys name = before.eraseDups) :
    (a.merge b).keys name = (before ++ b.keys name).eraseDups := by
  rw [keys, lookup_merge distinct.names]
  cases found : b.sections.lookup name with
  | none =>
    rw [keys_nil found, List.append_nil]
    exact seen
  | some entries =>
    rw [keys_eq found]
    exact Ordered.map_fst_putAll entries seen

theorem get?_merge (distinct : b.Distinct) (name key : String) :
    (a.merge b).get? name key = (b.get? name key).or (a.get? name key) := by
  rw [get?, lookup_merge distinct.names, get?, get?]
  cases found : b.sections.lookup name with
  | none => simp
  | some entries =>
    have keys := distinct.keys name
    rw [keys_eq found] at keys
    have values := Ordered.lookup_putAll ((a.sections.lookup name).getD []) keys key
    cases below : a.sections.lookup name with
    | none => simpa [below] using values
    | some lower => simpa [below] using values

theorem Distinct.merge (lower : a.Distinct) (upper : b.Distinct) : (a.merge b).Distinct := by
  refine ⟨?_,fun name => ?_⟩
  · rw [names_merge (eraseDups_eq lower.names).symm]
    exact nodup_eraseDups _
  · rw [keys_merge upper (eraseDups_eq (lower.keys name)).symm]
    exact nodup_eraseDups _

theorem distinct_empty : empty.Distinct := ⟨.nil,fun _ => .nil⟩

/-- It does not matter which of two neighbours are merged first. -/
theorem merge_assoc (first : a.Distinct) (second : b.Distinct) (third : c.Distinct) :
    (a.merge b).merge c = a.merge (b.merge c) := by
  refine ((first.merge second).merge third).eq ?_ (fun name => ?_) (fun name key => ?_)
  · have upper := names_merge (b := c) (eraseDups_eq second.names).symm
    have lower := names_merge (b := b) (eraseDups_eq first.names).symm
    rw [names_merge lower, names_merge (eraseDups_eq first.names).symm, upper,
      eraseDups_append_eraseDups, List.append_assoc]
  · have seen := (eraseDups_eq (first.keys name)).symm
    have upper := keys_merge third (eraseDups_eq (second.keys name)).symm
    rw [keys_merge third (keys_merge second seen), keys_merge (second.merge third) seen, upper,
      eraseDups_append_eraseDups, List.append_assoc]
  · rw [get?_merge third, get?_merge second, get?_merge (second.merge third), get?_merge third,
      Option.or_assoc]

theorem empty_merge (distinct : a.Distinct) : empty.merge a = a := by
  have nothing : empty.names = [].eraseDups := rfl
  refine (distinct_empty.merge distinct).eq ?_ (fun name => ?_) (fun name key => ?_)
  · rw [names_merge nothing, List.nil_append, eraseDups_eq distinct.names]
  · have none : empty.keys name = [].eraseDups := rfl
    rw [keys_merge distinct none, List.nil_append, eraseDups_eq (distinct.keys name)]
  · have none : empty.get? name key = none := rfl
    rw [get?_merge distinct, none, Option.or_none]

variable {all : List Settings}

theorem mergeAll_concat (all : List Settings) (s : Settings) :
    mergeAll (all ++ [s]) = (mergeAll all).merge s := by
  rw [mergeAll, mergeAll, List.foldl_append]
  rfl

/-- Sections are in the order in which the layers first have them. -/
theorem names_mergeAll (all : List Settings) :
    (mergeAll all).names = (all.flatMap names).eraseDups := by
  induction all using List.reverseRecOn with
  | nil => rfl
  | append_singleton all s ih =>
    rw [mergeAll_concat, names_merge ih, List.flatMap_append, List.flatMap_singleton]

theorem keys_mergeAll (distinct : ∀ s ∈ all, s.Distinct) (name : String) :
    (mergeAll all).keys name = (all.flatMap fun s => s.keys name).eraseDups := by
  induction all using List.reverseRecOn with
  | nil => rfl
  | append_singleton all s ih =>
    obtain ⟨front,last⟩ := List.forall_mem_append.mp distinct
    have upper := last s (List.mem_singleton_self s)
    rw [mergeAll_concat, keys_merge upper (ih front), List.flatMap_append, List.flatMap_singleton]

def highest? (all : List Settings) (name key : String) : Option String :=
  all.reverse.findSome? fun s => s.get? name key

theorem get?_mergeAll (distinct : ∀ s ∈ all, s.Distinct) (name key : String) :
    (mergeAll all).get? name key = highest? all name key := by
  induction all using List.reverseRecOn with
  | nil => rfl
  | append_singleton all s ih =>
    obtain ⟨front,last⟩ := List.forall_mem_append.mp distinct
    have upper := last s (List.mem_singleton_self s)
    rw [mergeAll_concat, get?_merge upper, ih front, highest?, highest?, List.reverse_append,
      List.findSome?_append]
    simp

theorem mergeAll_distinct (distinct : ∀ s ∈ all, s.Distinct) : (mergeAll all).Distinct := by
  refine ⟨?_,fun name => ?_⟩
  · rw [names_mergeAll]
    exact nodup_eraseDups _
  · rw [keys_mergeAll distinct]
    exact nodup_eraseDups _

/-- Settings on top of others are merged first as well. -/
theorem foldl_merge (lower : a.Distinct) (distinct : ∀ s ∈ all, s.Distinct) :
    all.foldl merge a = a.merge (mergeAll all) := by
  induction all using List.reverseRecOn with
  | nil => rfl
  | append_singleton all s ih =>
    obtain ⟨front,last⟩ := List.forall_mem_append.mp distinct
    have upper := last s (List.mem_singleton_self s)
    rw [List.foldl_append, ih front, mergeAll_concat, List.foldl_cons, List.foldl_nil]
    exact merge_assoc lower (mergeAll_distinct front) upper

theorem mergeAll_group {front group back : List Settings}
    (distinct : ∀ s ∈ front ++ group ++ back, s.Distinct) :
    mergeAll (front ++ mergeAll group :: back) = mergeAll (front ++ group ++ back) := by
  obtain ⟨below,_⟩ := List.forall_mem_append.mp distinct
  obtain ⟨lower,middle⟩ := List.forall_mem_append.mp below
  calc mergeAll (front ++ mergeAll group :: back)
    _ = back.foldl merge ((mergeAll front).merge (mergeAll group)) := by
      rw [mergeAll, List.foldl_append, List.foldl_cons]
      rfl
    _ = back.foldl merge (group.foldl merge (mergeAll front)) := by
      rw [foldl_merge (mergeAll_distinct lower) middle]
    _ = mergeAll (front ++ group ++ back) := by
      rw [mergeAll, mergeAll, List.foldl_append, List.foldl_append]

end Settings

namespace Override

def layer (o : Override) : Settings := ⟨[(o.sectionName,[(o.key,o.value)])]⟩

def last? (overrides : List Override) (name key : String) : Option String :=
  (overrides.reverse.find? fun o => o.sectionName = name ∧ o.key = key).map Override.value

theorem applyAll_mergeAll (overrides : List Override) (all : List Settings) :
    applyAll overrides (Settings.mergeAll all) =
      Settings.mergeAll (all ++ overrides.map layer) := by
  rw [Settings.mergeAll, Settings.mergeAll, List.foldl_append, List.foldl_map]
  rfl

theorem lookup_layer (o : Override) (name : String) :
    o.layer.sections.lookup name =
      if o.sectionName = name then some [(o.key,o.value)] else none := by
  by_cases here : name = o.sectionName
  · simp [layer, here]
  · have no : (name == o.sectionName) = false := by simpa using here
    simp [layer, List.lookup_cons, no, Ne.symm here]

theorem keys_layer (o : Override) (name : String) :
    o.layer.keys name = if o.sectionName = name then [o.key] else [] := by
  rw [Settings.keys, lookup_layer]
  split <;> rfl

theorem get?_layer (o : Override) (name key : String) :
    o.layer.get? name key =
      if o.sectionName = name ∧ o.key = key then some o.value else none := by
  rw [Settings.get?, lookup_layer]
  by_cases here : o.sectionName = name
  · by_cases same : key = o.key
    · simp [here, same]
    · have no : (key == o.key) = false := by simpa using same
      simp [here, List.lookup_cons, no, Ne.symm same]
  · simp [here]

theorem layer_distinct (o : Override) : o.layer.Distinct := by
  refine ⟨List.nodup_singleton _,fun name => ?_⟩
  rw [keys_layer]
  split <;> simp

theorem names_layers (overrides : List Override) :
    (overrides.map layer).flatMap Settings.names = overrides.map sectionName := by
  induction overrides with
  | nil => rfl
  | cons o overrides ih => exact congrArg (o.sectionName :: ·) ih

theorem keys_layers (overrides : List Override) (name : String) :
    ((overrides.map layer).flatMap fun s => s.keys name) =
      (overrides.filter fun o => o.sectionName = name).map key := by
  induction overrides with
  | nil => rfl
  | cons o overrides ih =>
    rw [List.map_cons, List.flatMap_cons, ih, keys_layer]
    by_cases here : o.sectionName = name
    · simp [here]
    · simp [here]

theorem highest?_layers (overrides : List Override) (name key : String) :
    Settings.highest? (overrides.map layer) name key = last? overrides name key := by
  rw [Settings.highest?, last?, ← List.map_reverse]
  induction overrides.reverse with
  | nil => rfl
  | cons o rest ih =>
    rw [List.map_cons, List.findSome?_cons, get?_layer]
    by_cases here : o.sectionName = name ∧ o.key = key
    · simp [here]
    · simp [here, ih]

end Override

namespace Settings

variable {fs : FileSystem} {fragments : List FragmentFile} {all : List Settings}

/-- What settings are that were merged from some, of which the last hides the others, and
overridden: sections and keys occur once each, where they first came, and the last value counts. -/
structure Layered (all : List Settings) (overrides : List Override) (merged : Settings) :
    Prop where
  distinct : merged.Distinct
  names : merged.names = (all.flatMap names ++ overrides.map Override.sectionName).eraseDups
  keys : ∀ name, merged.keys name =
    ((all.flatMap fun s => s.keys name) ++
      (overrides.filter fun o => o.sectionName = name).map Override.key).eraseDups
  present : ∀ name key, (merged.get? name key).isSome ↔
    (∃ s ∈ all, (s.get? name key).isSome) ∨ ∃ o ∈ overrides, o.sectionName = name ∧ o.key = key
  value : ∀ name key, merged.get? name key =
    (Override.last? overrides name key).or (highest? all name key)

theorem applyAll_layered (distinct : ∀ s ∈ all, s.Distinct) (overrides : List Override) :
    Layered all overrides (Override.applyAll overrides (mergeAll all)) := by
  have each : ∀ s ∈ all ++ overrides.map Override.layer, s.Distinct := by
    intro s found
    rcases List.mem_append.mp found with fragment | override
    · exact distinct s fragment
    · obtain ⟨o,_,rfl⟩ := List.mem_map.mp override
      exact o.layer_distinct
  have value : ∀ name key, (mergeAll (all ++ overrides.map Override.layer)).get? name key =
      (Override.last? overrides name key).or (highest? all name key) := by
    intro name key
    rw [get?_mergeAll each, ← Override.highest?_layers, highest?, highest?, highest?,
      List.reverse_append, List.findSome?_append]
  rw [Override.applyAll_mergeAll]
  refine ⟨mergeAll_distinct each,?_,fun name => ?_,fun name key => ?_,value⟩
  · rw [names_mergeAll, List.flatMap_append, Override.names_layers]
  · rw [keys_mergeAll each, List.flatMap_append, Override.keys_layers]
  · rw [value, Option.isSome_or, Bool.or_eq_true, or_comm, highest?, Override.last?,
      List.findSome?_isSome_iff, Option.isSome_map, List.find?_isSome]
    simp

/-- Fragments that can be read are merged, and the result is layered. Merging neighbours beforehand
makes no difference, since merging is associative, with no settings as its unit. -/
theorem ofFragments_layered
    (read : List.Forall₂ (fun fragment s => fragment.settings fs = .ok s) fragments all)
    (overrides : List Override) :
    ∃ merged, ofFragments fs fragments overrides = .ok merged ∧ Layered all overrides merged ∧
      (∀ s ∈ all, s.Distinct) ∧
      (∀ front group back, all = front ++ group ++ back →
        Override.applyAll overrides (mergeAll (front ++ mergeAll group :: back)) = merged) ∧
      ∀ a b c : Settings, a.Distinct → b.Distinct → c.Distinct →
        (a.merge b).merge c = a.merge (b.merge c) ∧ empty.merge a = a ∧ a.merge empty = a := by
  have done : fragments.mapM (FragmentFile.settings fs) = .ok all := by
    induction read with
    | nil => rfl
    | cons first _ ih =>
      rw [List.mapM_cons, first, ih]
      rfl
  have distinct : ∀ s ∈ all, s.Distinct := by
    intro s found
    obtain ⟨fragment,_,given⟩ := mapM_ok done s found
    exact (fragment_proper given).distinct
  refine ⟨_,?_,applyAll_layered distinct overrides,distinct,?_,?_⟩
  · rw [ofFragments, done]
    rfl
  · rintro front group back rfl
    rw [mergeAll_group distinct]
  · intro a b c first second third
    exact ⟨merge_assoc first second third,empty_merge first,rfl⟩

theorem fragment_settings {fragment : FragmentFile} {location : Location} {text : String}
    (resolved : fs.resolve fragment.path = .ok location)
    (file : fs.node? location = some (.file text.toUTF8))
    (decoded : Text.decode text.toUTF8 = .ok text) (unmarked : FileSystem.withoutMark text = text)
    (parsed : parse text = .ok s) : fragment.settings fs = .ok s := by
  rw [FragmentFile.settings, FileSystem.readText_file resolved file decoded unmarked]
  simp only [bind, Except.bind, parseFrom, parsed]

/-- Two fragments. The upper one has a new section in front, and gives a key of the lower another
value behind a key that the lower does not have. -/
def stackedDisk : FileSystem where
  entries := [([.text "a.ReaperTheme"],.file "[S]\nk=1\nj=0\n".toUTF8),
    ([.text "b.ReaperTheme"],.file "[T]\n[S]\nnew=3\nk=2\n".toUTF8)]
  workingDirectory := []

def stackedFragments : List FragmentFile :=
  [⟨"/a.ReaperTheme",.settings,0⟩,⟨"/b.ReaperTheme",.settings,1⟩]

def stackedSettings : List Settings :=
  [⟨[("S",[("k","1"),("j","0")])]⟩,⟨[("T",[]),("S",[("new","3"),("k","2")])]⟩]

theorem stacked_read : List.Forall₂ (fun fragment s => fragment.settings stackedDisk = .ok s)
    stackedFragments stackedSettings := by
  have lower : stackedDisk.resolve "/a.ReaperTheme" = .ok (["a.ReaperTheme"].map .text) :=
    FileSystem.resolveWith_plain true false rfl (by decide) (by decide) (by decide) (by cbv)
  have upper : stackedDisk.resolve "/b.ReaperTheme" = .ok (["b.ReaperTheme"].map .text) :=
    FileSystem.resolveWith_plain true false rfl (by decide) (by decide) (by decide) (by cbv)
  refine .cons ?_ (.cons ?_ .nil)
  · exact fragment_settings lower rfl (by cbv) (by cbv) (by cbv)
  · exact fragment_settings upper rfl (by cbv) (by cbv) (by cbv)

theorem stacked_layered : List.Forall₂ (fun fragment s => fragment.settings stackedDisk = .ok s)
      stackedFragments stackedSettings ∧
    ∃ merged, ofFragments stackedDisk stackedFragments [⟨"S","j","9"⟩,⟨"U","x","4"⟩] = .ok merged ∧
      merged.names = ["S","T","U"] ∧ merged.keys "S" = ["k","j","new"] ∧
      merged.get? "S" "k" = some "2" ∧ merged.get? "S" "j" = some "9" := by
  obtain ⟨merged,done,layered,_⟩ :=
    ofFragments_layered stacked_read [⟨"S","j","9"⟩,⟨"U","x","4"⟩]
  refine ⟨stacked_read,merged,done,?_,?_,?_,?_⟩
  · rw [layered.names]
    decide
  · rw [layered.keys]
    decide
  · rw [layered.value]
    decide
  · rw [layered.value]
    decide

end Settings

end ThemeForge
