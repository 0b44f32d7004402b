import ThemeForge.Expression.Binding
import ThemeForge.Proofs.Results
import ThemeForge.Proofs.Settings.Proper
import ThemeForge.Tables
import Mathlib.Data.List.Nodup

/-!
# What binding does

A positional argument is one that is given under the name of its parameter. So arguments are a table
from names, arguments are bound exactly if it has each name once, has no name but those of parameters
and has all that are required, and each parameter gets the argument under its name. Neither the order
of the table nor how many arguments are positional matters.
-/

namespace ThemeForge

theorem Ordered.lookup_perm {table others : List (String × α)} (perm : table.Perm others)
    (distinct : (table.map Prod.fst).Nodup) (key : String) : table.lookup key = others.lookup key := by
  induction perm with
  | nil => rfl
  | cons entry _ ih =>
    rw [List.lookup_cons, List.lookup_cons, ih (List.nodup_cons.mp distinct).2]
  | swap entry other rest =>
    obtain ⟨name,value⟩ := entry
    obtain ⟨name',value'⟩ := other
    obtain ⟨apart,_⟩ := List.nodup_cons.mp distinct
    have different : name' ≠ name := fun same => apart (same ▸ List.mem_cons_self)
    rw [List.lookup_cons, List.lookup_cons, List.lookup_cons, List.lookup_cons]
    by_cases first : key = name'
    · have second : (key == name) = false := by simpa [first] using different
      rw [second]
    · have second : (key == name') = false := by simpa using first
      rw [second]
  | trans first _ ih ih' =>
    exact (ih distinct).trans (ih' ((first.map Prod.fst).nodup_iff.mp distinct))

namespace Binding

/-- The arguments of a call are right for parameters of which the first `required` must be given. -/
structure Fits (parameters : List String) (required : Nat) (arguments : List α)
    (named : List (String × α)) : Prop where
  room : arguments.length ≤ parameters.length
  known : ∀ name ∈ named.map Prod.fst, name ∈ parameters
  free : ∀ name ∈ named.map Prod.fst, name ∉ parameters.take arguments.length
  once : (named.map Prod.fst).Nodup
  filled : ∀ parameter ∈ parameters.take required,
    parameter ∈ parameters.take arguments.length ∨ parameter ∈ named.map Prod.fst

def given (parameters : List String) (arguments : List α) (named : List (String × α)) :
    List (String × α) := parameters.zip arguments ++ named

/-- Arguments under their names are right for parameters. -/
structure Covers (parameters : List String) (required : Nat) (table : List (String × α)) : Prop where
  distinct : (table.map Prod.fst).Nodup
  known : ∀ name ∈ table.map Prod.fst, name ∈ parameters
  filled : ∀ parameter ∈ parameters.take required, parameter ∈ table.map Prod.fst

variable {function : Function} {parameters : List String} {required : Nat} {name : String} {a : α}
  {arguments more : List α} {named named' table others : List (String × α)} {slots : List (Option α)}

theorem Covers.perm (perm : table.Perm others) (covers : Covers parameters required table) :
    Covers parameters required others := by
  have names := perm.map Prod.fst
  refine ⟨names.nodup_iff.mp covers.distinct,?_,?_⟩
  · exact fun name member => covers.known name (names.mem_iff.mpr member)
  · exact fun parameter member => names.mem_iff.mp (covers.filled parameter member)

theorem names_zip (parameters : List String) (arguments : List α) :
    (parameters.zip arguments).map Prod.fst = parameters.take arguments.length := by
  induction parameters generalizing arguments with
  | nil => simp
  | cons parameter parameters ih =>
    cases arguments with
    | nil => rfl
    | cons a arguments => simp [ih]

theorem names_given : (given parameters arguments named).map Prod.fst =
    parameters.take arguments.length ++ named.map Prod.fst := by
  rw [given, List.map_append, names_zip]

theorem zip_append (parameters : List String) (arguments more : List α) :
    parameters.zip (arguments ++ more) =
      parameters.zip arguments ++ (parameters.drop arguments.length).zip more := by
  induction parameters generalizing arguments with
  | nil => simp
  | cons parameter parameters ih =>
    cases arguments with
    | nil => rfl
    | cons a arguments => simp [ih]

theorem given_perm
    (perm : named'.Perm ((parameters.drop arguments.length).zip more ++ named)) :
    (given parameters arguments named').Perm (given parameters (arguments ++ more) named) := by
  rw [given, given, zip_append, List.append_assoc]
  exact perm.append_left _

theorem fits_iff (distinct : parameters.Nodup) : Fits parameters required arguments named ↔
    arguments.length ≤ parameters.length ∧
      Covers parameters required (given parameters arguments named) := by
  constructor
  · rintro ⟨room,known,free,once,filled⟩
    refine ⟨room,?_,?_,?_⟩
    · rw [names_given]
      refine (distinct.sublist (List.take_sublist _ _)).append once ?_
      exact fun name front later => free name later front
    · rw [names_given]
      intro name member
      exact (List.mem_append.mp member).elim List.mem_of_mem_take (known name)
    · rw [names_given]
      exact fun parameter member => List.mem_append.mpr (filled parameter member)
  · rintro ⟨room,once,known,filled⟩
    rw [names_given] at once known filled
    obtain ⟨_,later,apart⟩ := List.nodup_append.mp once
    refine ⟨room,?_,?_,later,?_⟩
    · exact fun name member => known name (List.mem_append_right _ member)
    · exact fun name member front => apart name front name member rfl
    · exact fun parameter member => List.mem_append.mp (filled parameter member)

theorem Fits.respelled (distinct : parameters.Nodup)
    (fits : Fits parameters required (arguments ++ more) named)
    (perm : named'.Perm ((parameters.drop arguments.length).zip more ++ named)) :
    Fits parameters required arguments named' := by
  obtain ⟨room,covers⟩ := (fits_iff distinct).mp fits
  refine (fits_iff distinct).mpr ⟨?_,covers.perm (given_perm perm).symm⟩
  rw [List.length_append] at room
  omega

def filled (parameters : List String) (table : List (String × α)) : List (Option α) :=
  parameters.map fun parameter => table.lookup parameter

theorem positional_eq (distinct : parameters.Nodup) (arguments : List α) :
    positional parameters.length arguments = filled parameters (parameters.zip arguments) := by
  induction parameters generalizing arguments with
  | nil => rfl
  | cons parameter parameters ih =>
    obtain ⟨fresh,distinct⟩ := List.nodup_cons.mp distinct
    cases arguments with
    | nil => simpa [positional, filled] using ih distinct []
    | cons a arguments =>
      have others : parameters.map (fun p => ((parameter,a) :: parameters.zip arguments).lookup p) =
          filled parameters (parameters.zip arguments) := by
        refine List.map_congr_left fun p member => ?_
        have no : (p == parameter) = false := by simpa using fun same : p = parameter => fresh (same ▸ member)
        rw [List.lookup_cons, no]
      have first : filled (parameter :: parameters) ((parameter,a) :: parameters.zip arguments) =
          some a :: filled parameters (parameters.zip arguments) := by
        rw [← others, filled, List.map_cons, List.lookup_cons_self]
      rw [List.length_cons, positional, ih distinct, List.zip_cons_cons, first]

theorem lookup_concat (name : String) (table : List (String × α)) (a : α) (key : String) :
    (table ++ [(name,a)]).lookup key =
      (table.lookup key).or (if key = name then some a else none) := by
  rw [List.lookup_append]
  by_cases same : key = name
  · simp [same]
  · have no : (key == name) = false := by simpa using same
    simp [same, List.lookup_cons, no]

theorem keyword_eq_ok_iff (distinct : parameters.Nodup) :
    keyword function parameters (filled parameters table) name a = .ok slots ↔
      name ∈ parameters ∧ name ∉ table.map Prod.fst ∧
        slots = filled parameters (table ++ [(name,a)]) := by
  unfold keyword
  cases place : parameters.idxOf? name with
  | none => simp [List.idxOf?_eq_none_iff.mp place]
  | some index =>
    obtain ⟨inside,here,_⟩ := List.idxOf?_eq_some_iff.mp place
    have member : name ∈ parameters := here ▸ List.getElem_mem inside
    have slot : (filled parameters table)[index]? = some (table.lookup name) := by
      simp [filled, List.getElem?_eq_getElem inside, here]
    simp only [slot]
    cases found : table.lookup name with
    | some b =>
      have present : name ∈ table.map Prod.fst := by
        by_contra absent
        simp [Settings.lookup_none_iff.mpr absent] at found
      simp [present]
    | none =>
      have set : (filled parameters table).set index (some a) =
          filled parameters (table ++ [(name,a)]) := by
        refine List.ext_getElem (by simp [filled]) fun i bound _ => ?_
        have within : i < parameters.length := by simpa [filled] using bound
        simp only [filled, List.getElem_set, List.getElem_map, lookup_concat]
        by_cases same : index = i
        · subst same
          simp [here, found]
        · have different : parameters[i] ≠ name := fun equal =>
            same ((distinct.getElem_inj_iff).mp (here.trans equal.symm))
          simp [same, different]
      simp [member, Settings.lookup_none_iff.mp found, set, eq_comm]

/-- Keyword arguments are further entries, each of which is new. -/
theorem keywords_eq_ok_iff (distinct : parameters.Nodup) :
    keywords function parameters (filled parameters table) named = .ok slots ↔
      (∀ name ∈ named.map Prod.fst, name ∈ parameters ∧ name ∉ table.map Prod.fst) ∧
        (named.map Prod.fst).Nodup ∧ slots = filled parameters (table ++ named) := by
  induction named generalizing table with
  | nil => simp [keywords, eq_comm]
  | cons entry named ih =>
    obtain ⟨name,a⟩ := entry
    have first : keywords function parameters (filled parameters table) ((name,a) :: named) =
        .ok slots ↔ name ∈ parameters ∧ name ∉ table.map Prod.fst ∧
          keywords function parameters (filled parameters (table ++ [(name,a)])) named = .ok slots := by
      refine bind_ok_iff.trans ⟨?_,?_⟩
      · rintro ⟨_,put,rest⟩
        obtain ⟨known,fresh,rfl⟩ := (keyword_eq_ok_iff distinct).mp put
        exact ⟨known,fresh,rest⟩
      · rintro ⟨known,fresh,rest⟩
        exact ⟨_,(keyword_eq_ok_iff distinct).mpr ⟨known,fresh,rfl⟩,rest⟩
    rw [first, ih, List.append_assoc, List.singleton_append, List.map_cons, List.forall_mem_cons,
      List.nodup_cons, List.map_append]
    constructor
    · rintro ⟨known,fresh,others,once,same⟩
      refine ⟨⟨⟨known,fresh⟩,fun key member => ?_⟩,⟨fun again => ?_,once⟩,same⟩
      · obtain ⟨inside,new⟩ := others key member
        exact ⟨inside,fun old => new (List.mem_append_left _ old)⟩
      · exact (others name again).2 (List.mem_append_right _ (List.mem_singleton_self _))
    · rintro ⟨⟨⟨known,fresh⟩,others⟩,⟨unique,once⟩,same⟩
      refine ⟨known,fresh,fun key member => ⟨(others key member).1,fun old => ?_⟩,once,same⟩
      rcases List.mem_append.mp old with before | last
      · exact (others key member).2 before
      · exact unique (List.mem_singleton.mp last ▸ member)

theorem all_isSome_filled (parameters : List String) (count : Nat) (table : List (String × α)) :
    ((filled parameters table).take count).all Option.isSome = true ↔
      ∀ parameter ∈ parameters.take count, parameter ∈ table.map Prod.fst := by
  rw [filled, ← List.map_take, List.all_map, List.all_eq_true]
  refine forall₂_congr fun parameter _ => ?_
  rw [Function.comp_apply, Option.isSome_iff_ne_none, ne_eq, Settings.lookup_none_iff, not_not]

/-- Arguments are bound exactly if they are right, each to the parameter of its name. -/
theorem bind_eq_ok_iff (distinct : parameters.Nodup) :
    bind function parameters arguments named = .ok slots ↔
      Fits parameters function.required arguments named ∧
        slots = filled parameters (given parameters arguments named) := by
  unfold bind
  split
  · next many =>
    refine ⟨nofun,?_⟩
    rintro ⟨fits,_⟩
    exact absurd fits.room (Nat.not_le.mpr many)
  · next room =>
    have room := Nat.not_lt.mp room
    rw [positional_eq distinct]
    refine bind_ok_iff.trans ⟨?_,?_⟩
    · rintro ⟨bound,put,checked⟩
      obtain ⟨known,once,rfl⟩ := (keywords_eq_ok_iff distinct).mp put
      rw [← given] at checked
      split at checked
      · next full =>
        cases checked
        rw [all_isSome_filled, names_given] at full
        rw [names_zip] at known
        refine ⟨⟨room,fun name member => (known name member).1,fun name member => (known name member).2,
          once,?_⟩,rfl⟩
        exact fun parameter member => List.mem_append.mp (full parameter member)
      · cases checked
    · rintro ⟨fits,rfl⟩
      refine ⟨_,(keywords_eq_ok_iff distinct).mpr ⟨?_,fits.once,rfl⟩,?_⟩
      · rw [names_zip]
        exact fun name member => ⟨fits.known name member,fits.free name member⟩
      · rw [← given, if_pos]
        · rfl
        · rw [all_isSome_filled, names_given]
          exact fun parameter member => List.mem_append.mpr (fits.filled parameter member)

/-- The argument in a slot was given under the name of the slot's parameter. -/
theorem mem_given_of_bind {index : Nat} (distinct : parameters.Nodup)
    (bound : bind function parameters arguments named = .ok slots)
    (slot : slots[index]? = some (some a)) :
    ∃ parameter, parameters[index]? = some parameter ∧
      (parameter,a) ∈ given parameters arguments named := by
  obtain ⟨_,rfl⟩ := (bind_eq_ok_iff distinct).mp bound
  rw [filled, List.getElem?_map] at slot
  obtain ⟨parameter,here,found⟩ := Option.map_eq_some_iff.mp slot
  exact ⟨parameter,here,exists_of_lookup found⟩

/-- Another spelling of the arguments binds the same ones to the same parameters. -/
theorem bind_respelled (distinct : parameters.Nodup)
    (bound : bind function parameters (arguments ++ more) named = .ok slots)
    (perm : named'.Perm ((parameters.drop arguments.length).zip more ++ named)) :
    bind function parameters arguments named' = .ok slots := by
  obtain ⟨fits,rfl⟩ := (bind_eq_ok_iff distinct).mp bound
  refine (bind_eq_ok_iff distinct).mpr ⟨fits.respelled distinct perm,?_⟩
  obtain ⟨_,covers⟩ := (fits_iff distinct).mp fits
  exact List.map_congr_left fun parameter _ =>
    Ordered.lookup_perm (given_perm perm).symm covers.distinct parameter

section Mapped

variable (f : α → β)

theorem positional_map (count : Nat) (arguments : List α) :
    positional count (arguments.map f) = (positional count arguments).map (Option.map f) := by
  induction count generalizing arguments with
  | zero => rfl
  | succ count ih =>
    cases arguments with
    | nil => simpa [positional] using ih []
    | cons a arguments => simp [positional, ih]

theorem keyword_map : keyword function parameters (slots.map (Option.map f)) name (f a) =
    (keyword function parameters slots name a).map (List.map (Option.map f)) := by
  unfold keyword
  cases parameters.idxOf? name with
  | none => rfl
  | some index =>
    simp only [List.getElem?_map]
    rcases slots[index]? with _ | _ | b
    · rfl
    · simp [Except.map, List.map_set]
    · rfl

theorem keywords_map : keywords function parameters (slots.map (Option.map f))
      (named.map fun entry => (entry.1,f entry.2)) =
    (keywords function parameters slots named).map (List.map (Option.map f)) := by
  induction named generalizing slots with
  | nil => rfl
  | cons entry named ih =>
    rw [List.map_cons, keywords, keyword_map, keywords]
    cases keyword function parameters slots entry.1 entry.2 with
    | error fault => rfl
    | ok filled => exact ih

theorem bind_map : bind function parameters (arguments.map f)
      (named.map fun entry => (entry.1,f entry.2)) =
    (bind function parameters arguments named).map (List.map (Option.map f)) := by
  unfold bind
  simp only [List.length_map, positional_map, keywords_map]
  split
  · rfl
  · cases keywords function parameters (positional parameters.length arguments) named with
    | error fault => rfl
    | ok filled =>
      have full : ((filled.map (Option.map f)).take function.required).all Option.isSome =
          (filled.take function.required).all Option.isSome := by
        rw [← List.map_take, List.all_map]
        congr 1
        funext slot
        exact Option.isSome_map ..
      rw [Except.map, ok_bind, ok_bind, full]
      split <;> rfl

end Mapped

end Binding

end ThemeForge
