import FinalNewline.Exports

/-!
# Lookups after a history

A lookup loads components, and what is loaded decides what later lookups find.  So an answer
may depend on all the lookups before it, of which there may be any number.  Yet little of
this history can be observed.  What a lookup loads does not depend on what is loaded already,
so that a history loads what its lookups load, each by itself.  And there are only two
components whose presence a lookup can notice: the command line, under its label in the
library, and the entry point, under its label in the command line.

The second of them is where the exports are not stable.  The command line exports the
function of the entry point under the very name that is also the entry point's label, and a
lookup of this name loads the entry point.  The function is thus found by the first lookup
alone.

## Main Definitions

* `Lookup`, `Lookup.loads` — lookups, and what they load
* `Loaded.after`, `answerAfter` — what is loaded after a history, and what is answered then
* `LoadsCommandLine`, `LoadsEntryPoint` — the two things that can be noticed of a history
* `Component.exported` — the names that a component says it exports

## Main Results

* `Loaded.mem_get`, `Loaded.mem_after` — what a lookup and a history load
* `Loaded.get_congr` — on what an answer depends
* `answers_of_history` — how answers depend on the history
* `exported_answer_stable_iff` — which exports are stable
-/

namespace FinalNewline

open Component

/-- A lookup: the component that is asked, and a name in it. -/
structure Lookup where
  component : Component
  name : String
  deriving DecidableEq

namespace Lookup

/-- The path and the name with which the lookup is made. -/
def spelled (lookup : Lookup) : String × String :=
  (lookup.component.path, lookup.name)

/-- The components that a lookup loads: the one that is asked and all that it needs, and if
it looks for the name in the entry point, then the entry point as well. -/
def loads (lookup : Lookup) : List Component :=
  lookup.component.loads ++
    if lookup.name ∈ lookup.component.defers then entryPoint.loads else []

end Lookup

namespace Loaded

/-! ### One lookup -/

theorem mem_load {loaded : Loaded} {component inner : Component} :
    inner ∈ loaded.load component ↔ inner ∈ component.loads ∨ inner ∈ loaded :=
  List.mem_append

theorem access_path (loaded : Loaded) (component : Component) (name : String) :
    loaded.access component.path name = loaded.get component name := by
  have hpath : ofPath? component.path = some component := by cases component <;> rfl
  rw [access, hpath]

/-- What is found in a component depends on the loaded components that it contains under the
name. -/
theorem bound?_congr {loaded other : Loaded} {component : Component} {name : String}
    (h : ∀ inner : Component, inner.parent? = some component → inner.label = name →
      (inner ∈ loaded ↔ inner ∈ other)) :
    loaded.bound? component name = other.bound? component name := by
  have hshown : ∀ inner : Component,
      (inner ∈ loaded && inner.parent? = some component && inner.label = name) =
        (inner ∈ other && inner.parent? = some component && inner.label = name) := by
    intro inner
    by_cases hparent : inner.parent? = some component
    · by_cases hlabel : inner.label = name
      · simp [h inner hparent hlabel]
      · simp [hlabel]
    · simp [hparent]
  unfold bound?
  simp only [hshown]

/-- A loaded component is found under its label in the one that contains it, and one that is
not loaded is not. -/
theorem bound?_label (loaded : Loaded) (inner : Component) {component : Component}
    (h : inner.parent? = some component) :
    loaded.bound? component inner.label =
      if inner ∈ loaded then some (.component inner) else none := by
  cases inner <;> simp only [parent?, Option.some.injEq, reduceCtorEq] at h
  -- No component binds the label of one in it, and the labels in it differ.
  all_goals
    subst h
    split <;> simp [bound?, binds, label, List.lookup_cons, Component.all, parent?, *]

/-- Nothing is found under a name that the component does not bind and that is not the label
of a component in it. -/
theorem bound?_eq_none {loaded : Loaded} {component : Component} {name : String}
    (hbinds : name ∉ component.binds.map Prod.fst)
    (hlabel : ∀ inner : Component, inner.parent? = some component → inner.label ≠ name) :
    loaded.bound? component name = none := by
  have hunbound : component.binds.lookup name = none := by
    rw [List.lookup_eq_none_iff]
    intro entry hentry
    have hne : entry.1 ≠ name := by
      rintro rfl
      exact hbinds (List.mem_map_of_mem hentry)
    simpa [bne_iff_ne] using hne.symm
  have hhidden : Component.all.find? (fun inner =>
      inner ∈ loaded && inner.parent? = some component && inner.label = name) = none := by
    rw [List.find?_eq_none]
    intro inner _
    by_cases hparent : inner.parent? = some component
    · simp [hlabel inner hparent]
    · simp [hparent]
  rw [bound?, hunbound]
  simp only [hhidden, Option.map_none]

/-- What a lookup finds: what the component has bound, or else what it takes from the entry
point. -/
def found? (loaded : Loaded) (component : Component) (name : String) : Option Export :=
  ((loaded.load component).bound? component name).or (deferred? component name)

/-- A component that is not loaded with the one that contains it is found there under its
label as soon as it is loaded. -/
theorem found?_label (loaded : Loaded) (inner : Component) {component : Component}
    (hparent : inner.parent? = some component) (hloads : inner ∉ component.loads) :
    loaded.found? component inner.label =
      if inner ∈ loaded then some (.component inner) else deferred? component inner.label := by
  have hmem : inner ∈ loaded.load component ↔ inner ∈ loaded := by simp [mem_load, hloads]
  rw [found?, bound?_label _ inner hparent]
  simp only [hmem]
  split
  · rfl
  · rfl

theorem get_of_found {loaded : Loaded} {component : Component} {name : String} {value : Export}
    (h : loaded.found? component name = some value) :
    (loaded.get component name).1 = .ok value := by
  unfold found? at h
  unfold get
  cases hbound : (loaded.load component).bound? component name with
  | some own => simpa [hbound] using h
  | none => simp_all

theorem get_of_not_found {loaded : Loaded} {component : Component} {name : String}
    (h : loaded.found? component name = none) :
    (loaded.get component name).1 = .error (.noName component name) := by
  obtain ⟨hbound, hdeferred⟩ := Option.or_eq_none_iff.1 h
  simp [get, hbound, hdeferred]

/-- A name for which a component looks in the entry point is bound only once the entry point
is loaded. -/
theorem mem_of_bound?_of_defers {loaded : Loaded} {component : Component} {name : String}
    {value : Export} (hdefers : name ∈ component.defers)
    (hbound : loaded.bound? component name = some value) : entryPoint ∈ loaded := by
  cases component with
  | commandLine =>
    rcases List.mem_cons.1 hdefers with rfl | hdefers
    · simp [bound?, binds, List.lookup_cons, Component.all, parent?, label] at hbound
    · obtain rfl : name = entryPoint.label := List.mem_singleton.1 hdefers
      rw [bound?_label loaded entryPoint rfl] at hbound
      split at hbound
      · assumption
      · simp at hbound
  | _ => simp [defers] at hdefers

/-- The entry point has every name for which a component looks in it. -/
theorem exists_deferred? {component : Component} {name : String} (h : name ∈ component.defers) :
    ∃ value, deferred? component name = some value := by
  cases component with
  | commandLine =>
    rcases List.mem_cons.1 h with rfl | h
    · exact ⟨.command "cli", rfl⟩
    · obtain rfl := List.mem_singleton.1 h
      exact ⟨.function "main", rfl⟩
  | _ => simp [defers] at h

/-- A component that looks for names in the entry point needs all that the entry point needs
but the entry point itself. -/
theorem mem_loads_of_defers {component inner : Component} {name : String}
    (hdefers : name ∈ component.defers) (hinner : inner ∈ entryPoint.loads) :
    inner ∈ component.loads ∨ inner = entryPoint := by
  cases component with
  | commandLine => simpa [loads, or_assoc] using hinner
  | _ => simp [defers] at hdefers

/-- **What a lookup loads** does not depend on what is loaded already. -/
theorem mem_get {loaded : Loaded} {lookup : Lookup} {inner : Component} :
    inner ∈ (loaded.get lookup.component lookup.name).2 ↔
      inner ∈ lookup.loads ∨ inner ∈ loaded := by
  obtain ⟨component, name⟩ := lookup
  unfold get Lookup.loads
  by_cases hdefers : name ∈ component.defers
  · obtain ⟨value, hvalue⟩ := exists_deferred? hdefers
    cases hbound : (loaded.load component).bound? component name with
    | none => simp [hbound, hvalue, hdefers, mem_load, or_assoc, or_left_comm]
    | some own =>
      -- The name is bound, so the entry point is there, and nothing more is loaded.
      have hentry := mem_of_bound?_of_defers hdefers hbound
      have hneeds : inner ∈ entryPoint.loads → inner ∈ loaded.load component := by
        intro hinner
        rcases mem_loads_of_defers hdefers hinner with hneeded | rfl
        · exact mem_load.2 (.inl hneeded)
        · exact hentry
      simp only [hbound, if_pos hdefers, mem_load, List.mem_append] at hneeds ⊢
      grind
  · have hnone : deferred? component name = none := if_neg hdefers
    cases hbound : (loaded.load component).bound? component name with
    | none => simp [hbound, hnone, hdefers, mem_load]
    | some own => simp [hbound, hdefers, mem_load]

/-! ### A history of lookups -/

/-- The components that are loaded after a history of lookups. -/
def after (loaded : Loaded) (history : List Lookup) : Loaded :=
  history.foldl (fun loaded lookup => (loaded.access lookup.spelled.1 lookup.spelled.2).2) loaded

@[simp]
theorem after_nil (loaded : Loaded) : loaded.after [] = loaded := rfl

@[simp]
theorem after_cons (loaded : Loaded) (lookup : Lookup) (history : List Lookup) :
    loaded.after (lookup :: history) =
      (loaded.get lookup.component lookup.name).2.after history := by
  rw [after, List.foldl_cons, Lookup.spelled, access_path]
  rfl

/-- A history loads what its lookups load. -/
theorem mem_after {loaded : Loaded} {history : List Lookup} {inner : Component} :
    inner ∈ loaded.after history ↔
      (∃ lookup ∈ history, inner ∈ lookup.loads) ∨ inner ∈ loaded := by
  induction history generalizing loaded with
  | nil => simp
  | cons lookup history ih =>
    rw [after_cons, ih, mem_get]
    simp [or_assoc, or_left_comm]

/-- The answers to a history are given one by one, each after those before it. -/
theorem accesses_concat (loaded : Loaded) (history : List Lookup) (lookup : Lookup) :
    loaded.accesses ((history ++ [lookup]).map Lookup.spelled) =
      loaded.accesses (history.map Lookup.spelled) ++
        [((loaded.after history).get lookup.component lookup.name).1] := by
  induction history generalizing loaded with
  | nil => simp [accesses, Lookup.spelled, access_path]
  | cons first history ih =>
    simpa [accesses, Lookup.spelled, access_path] using
      ih (loaded.get first.component first.name).2

end Loaded

/-! ### What can be noticed of a history -/

/-- The lookup can notice whether a component is loaded: the one that is asked contains it,
under the name that is looked up, and does not load it by itself. -/
def Lookup.Notices (lookup : Lookup) (inner : Component) : Prop :=
  inner.parent? = some lookup.component ∧ inner.label = lookup.name ∧
    inner ∉ lookup.component.loads

/-- Some lookup of the history names the command line or the entry point. -/
def LoadsCommandLine (history : List Lookup) : Prop :=
  ∃ lookup ∈ history, lookup.component = commandLine ∨ lookup.component = entryPoint

/-- Some lookup of the history names the entry point, or is made in the command line with one
of the names that are taken from the entry point. -/
def LoadsEntryPoint (history : List Lookup) : Prop :=
  ∃ lookup ∈ history, lookup.component = entryPoint ∨ lookup = ⟨commandLine, "cli"⟩ ∨
    lookup = ⟨commandLine, "main"⟩

instance (history : List Lookup) : Decidable (LoadsCommandLine history) :=
  inferInstanceAs (Decidable (∃ lookup ∈ history, _))

instance (history : List Lookup) : Decidable (LoadsEntryPoint history) :=
  inferInstanceAs (Decidable (∃ lookup ∈ history, _))

/-- What a lookup answers after a history that began with nothing loaded. -/
def answerAfter (history : List Lookup) (lookup : Lookup) : Except LookupError Export :=
  ((Loaded.after [] history).get lookup.component lookup.name).1

/-- Only two lookups can notice anything, and each of them only one component. -/
theorem Lookup.notices_iff {lookup : Lookup} {inner : Component} :
    lookup.Notices inner ↔
      lookup = ⟨library, "cli"⟩ ∧ inner = commandLine ∨
        lookup = ⟨commandLine, "main"⟩ ∧ inner = entryPoint := by
  obtain ⟨component, name⟩ := lookup
  cases inner <;> cases component <;> simp [Notices, parent?, label, Component.loads, eq_comm]

namespace Loaded

/-- An answer depends on the components that the lookup can notice, and on nothing else. -/
theorem get_congr {loaded other : Loaded} {lookup : Lookup}
    (h : ∀ inner, lookup.Notices inner → (inner ∈ loaded ↔ inner ∈ other)) :
    (loaded.get lookup.component lookup.name).1 = (other.get lookup.component lookup.name).1 := by
  have hfound : loaded.found? lookup.component lookup.name =
      other.found? lookup.component lookup.name := by
    refine congrArg (Option.or · _) (bound?_congr fun inner hparent hlabel => ?_)
    rw [mem_load, mem_load]
    by_cases hloads : inner ∈ lookup.component.loads
    · simp [hloads]
    · rw [h inner ⟨hparent, hlabel, hloads⟩]
  cases hvalue : other.found? lookup.component lookup.name with
  | some value => rw [get_of_found hvalue, get_of_found (hfound.trans hvalue)]
  | none => rw [get_of_not_found hvalue, get_of_not_found (hfound.trans hvalue)]

theorem mem_after_commandLine {history : List Lookup} :
    commandLine ∈ after [] history ↔ LoadsCommandLine history := by
  have hloads : ∀ lookup : Lookup, commandLine ∈ lookup.loads ↔
      lookup.component = commandLine ∨ lookup.component = entryPoint := by
    rintro ⟨component, name⟩
    cases component <;> simp [Lookup.loads, loads, defers]
  simp [mem_after, hloads, LoadsCommandLine]

theorem mem_after_entryPoint {history : List Lookup} :
    entryPoint ∈ after [] history ↔ LoadsEntryPoint history := by
  have hloads : ∀ lookup : Lookup, entryPoint ∈ lookup.loads ↔
      lookup.component = entryPoint ∨ lookup = ⟨commandLine, "cli"⟩ ∨
        lookup = ⟨commandLine, "main"⟩ := by
    rintro ⟨component, name⟩
    cases component <;> simp [Lookup.loads, loads, defers]
  simp [mem_after, hloads, LoadsEntryPoint]

end Loaded

/-! ### Answers -/

/-- The function of the entry point is found until the entry point is loaded; from then on its
name gives the entry point itself. -/
theorem answerAfter_commandLine_main (history : List Lookup) :
    answerAfter history ⟨commandLine, "main"⟩ =
      if LoadsEntryPoint history then .ok (.component entryPoint) else .ok (.function "main") := by
  have hfound : (Loaded.after [] history).found? commandLine "main" = _ :=
    Loaded.found?_label _ entryPoint rfl (by decide)
  simp only [Loaded.mem_after_entryPoint] at hfound
  split
  · next hloads => exact Loaded.get_of_found (hfound.trans (if_pos hloads))
  · next hloads => exact Loaded.get_of_found (hfound.trans (if_neg hloads))

/-- The command line is found in the library as soon as it is loaded. -/
theorem answerAfter_library_cli (history : List Lookup) :
    answerAfter history ⟨library, "cli"⟩ =
      if LoadsCommandLine history then .ok (.component commandLine)
      else .error (.noName library "cli") := by
  have hfound : (Loaded.after [] history).found? library "cli" = _ :=
    Loaded.found?_label _ commandLine rfl (by decide)
  simp only [Loaded.mem_after_commandLine] at hfound
  split
  · next hloads => exact Loaded.get_of_found (hfound.trans (if_pos hloads))
  · next hloads => exact Loaded.get_of_not_found (hfound.trans (if_neg hloads))

/-- All other answers do not depend on the history. -/
theorem answerAfter_eq {lookup : Lookup} (hlibrary : lookup ≠ ⟨library, "cli"⟩)
    (hentry : lookup ≠ ⟨commandLine, "main"⟩) (history other : List Lookup) :
    answerAfter history lookup = answerAfter other lookup := by
  apply Loaded.get_congr
  intro inner hnotices
  rcases Lookup.notices_iff.1 hnotices with ⟨rfl, -⟩ | ⟨rfl, -⟩
  · exact absurd rfl hlibrary
  · exact absurd rfl hentry

/-- A name that the command line neither binds nor takes from the entry point is not found in
it, and looking for it does not load the entry point. -/
theorem answerAfter_commandLine_unknown {name : String}
    (hbinds : name ∉ commandLine.binds.map Prod.fst) (hdefers : name ∉ commandLine.defers)
    (history : List Lookup) :
    answerAfter history ⟨commandLine, name⟩ = .error (.noName commandLine name) ∧
      (LoadsEntryPoint (history ++ [⟨commandLine, name⟩]) ↔ LoadsEntryPoint history) := by
  constructor
  · apply Loaded.get_of_not_found
    have hlabel : ∀ inner : Component, inner.parent? = some commandLine → inner.label ≠ name := by
      rintro inner hparent rfl
      cases inner <;> simp [parent?, label, defers] at hparent hdefers
    rw [Loaded.found?, Loaded.bound?_eq_none hbinds hlabel]
    exact if_neg hdefers
  · simp [defers] at hdefers
    simp [LoadsEntryPoint, hdefers]

/-! ### Exports -/

/-- The names that a component says it exports. -/
def Component.exported (component : Component) : List String :=
  match component.binds.lookup "__all__" with
  | some (.names names) => names
  | _ => []

/-- What is exported is found, whatever was looked up before. -/
theorem exists_answerAfter_of_exported {lookup : Lookup}
    (h : lookup.name ∈ lookup.component.exported) (history : List Lookup) :
    ∃ value, answerAfter history lookup = .ok value := by
  by_cases hmain : lookup = ⟨commandLine, "main"⟩
  · subst hmain
    rw [answerAfter_commandLine_main]
    split
    · exact ⟨_, rfl⟩
    · exact ⟨_, rfl⟩
  · have hcli : lookup ≠ ⟨library, "cli"⟩ := by
      rintro rfl
      simp [exported, binds] at h
    rw [answerAfter_eq hcli hmain history []]
    obtain ⟨component, name⟩ := lookup
    cases component <;> simp [exported, binds, List.lookup_cons] at h
    · rcases h with rfl | rfl | rfl
      all_goals exact ⟨_, rfl⟩
    · rcases h with rfl | rfl
      all_goals exact ⟨_, rfl⟩
    · rcases h with rfl | rfl
      · exact ⟨_, rfl⟩
      · exact absurd rfl hmain

/-- **How answers depend on the history.**  Two lookups alone notice it.  The name `main` gives
the function in the command line until the entry point is loaded, and the entry point from
then on; `cli` gives the command line in the library once that is loaded, and nothing before.
All other lookups are answered as if they were the first.  A name that the command line does
not know is refused with the bare name, and the entry point is not loaded to look for it. -/
theorem answers_of_history (history : List Lookup) :
    (∀ lookup, Loaded.accesses [] ((history ++ [lookup]).map Lookup.spelled) =
      Loaded.accesses [] (history.map Lookup.spelled) ++ [answerAfter history lookup]) ∧
    (answerAfter history ⟨commandLine, "main"⟩ = .ok (.function "main") ↔
      ¬ LoadsEntryPoint history) ∧
    (LoadsEntryPoint history →
      answerAfter history ⟨commandLine, "main"⟩ = .ok (.component entryPoint)) ∧
    (answerAfter history ⟨library, "cli"⟩ = .ok (.component commandLine) ↔
      LoadsCommandLine history) ∧
    (¬ LoadsCommandLine history →
      answerAfter history ⟨library, "cli"⟩ = .error (.noName library "cli")) ∧
    (∀ lookup other, lookup ≠ ⟨library, "cli"⟩ → lookup ≠ ⟨commandLine, "main"⟩ →
      answerAfter history lookup = answerAfter other lookup) ∧
    (∀ name, name ∉ commandLine.binds.map Prod.fst → name ∉ commandLine.defers →
      answerAfter history ⟨commandLine, name⟩ = .error (.noName commandLine name) ∧
      (LookupError.noName commandLine name).message = name ∧
      (entryPoint ∈ Loaded.after [] (history ++ [⟨commandLine, name⟩]) ↔
        entryPoint ∈ Loaded.after [] history)) := by
  refine ⟨Loaded.accesses_concat [] history, ?_, ?_, ?_, ?_, ?_, ?_⟩
  · rw [answerAfter_commandLine_main]
    split <;> simp [*]
  · intro hloads
    rw [answerAfter_commandLine_main, if_pos hloads]
  · rw [answerAfter_library_cli]
    split <;> simp [*]
  · intro hloads
    rw [answerAfter_library_cli, if_neg hloads]
  · intro lookup other hlibrary hentry
    exact answerAfter_eq hlibrary hentry history other
  · intro name hbinds hdefers
    obtain ⟨hanswer, hloads⟩ := answerAfter_commandLine_unknown hbinds hdefers history
    rw [Loaded.mem_after_entryPoint, Loaded.mem_after_entryPoint]
    exact ⟨hanswer, rfl, hloads⟩

/-- The second lookup loads the entry point.  From then on `main` gives the entry point, while
a name that differs from it by a capital is not found. -/
theorem answers_of_history_with_command :
    let history : List Lookup := [⟨library, "relay"⟩, ⟨commandLine, "cli"⟩]
    LoadsEntryPoint history ∧
      answerAfter history ⟨commandLine, "main"⟩ = .ok (.component entryPoint) ∧
      "Main" ∉ commandLine.binds.map Prod.fst ∧ "Main" ∉ commandLine.defers ∧
      answerAfter history ⟨commandLine, "Main"⟩ = .error (.noName commandLine "Main") := by
  intro history
  have hloads : LoadsEntryPoint history := by decide
  have hbinds : "Main" ∉ commandLine.binds.map Prod.fst := by decide
  have hdefers : "Main" ∉ commandLine.defers := by decide
  obtain ⟨-, -, hmain, -, -, -, hunknown⟩ := answers_of_history history
  exact ⟨hloads, hmain hloads, hbinds, hdefers, (hunknown "Main" hbinds hdefers).1⟩

/-- **Which exports are stable.**  Whatever was looked up before, an exported name is found,
and after any two histories it gives the same, with one exception: the `main` of the command
line, if one of the histories has loaded the entry point and the other has not.  Its `cli`
always gives the command. -/
theorem exported_answer_stable_iff {lookup : Lookup}
    (h : lookup.name ∈ lookup.component.exported) (history other : List Lookup) :
    (∃ value, answerAfter history lookup = .ok value) ∧
    (answerAfter history lookup = answerAfter other lookup ↔
      (lookup = ⟨commandLine, "main"⟩ → (LoadsEntryPoint history ↔ LoadsEntryPoint other))) ∧
    answerAfter history ⟨commandLine, "cli"⟩ = .ok (.command "cli") ∧
    (answerAfter history ⟨commandLine, "main"⟩ = .ok (.function "main") ↔
      ¬ LoadsEntryPoint history) := by
  have hcli : lookup ≠ ⟨library, "cli"⟩ := by
    rintro rfl
    simp [exported, binds] at h
  refine ⟨exists_answerAfter_of_exported h history, ?_, ?_, ?_⟩
  · by_cases hmain : lookup = ⟨commandLine, "main"⟩
    · subst hmain
      rw [answerAfter_commandLine_main, answerAfter_commandLine_main]
      by_cases hhistory : LoadsEntryPoint history <;> by_cases hother : LoadsEntryPoint other <;>
        simp [hhistory, hother]
    · simp [hmain, answerAfter_eq hcli hmain history other]
  · exact (answerAfter_eq (by decide) (by decide) history []).trans rfl
  · rw [answerAfter_commandLine_main]
    split <;> simp [*]

/-- Both histories load the entry point, in different ways, so `main` gives the same. -/
theorem exported_answer_stable_once_loaded :
    let history : List Lookup := [⟨commandLine, "cli"⟩]
    let other : List Lookup := [⟨core, "streaming"⟩, ⟨entryPoint, "relay"⟩]
    let main : Lookup := ⟨commandLine, "main"⟩
    main.name ∈ main.component.exported ∧ LoadsEntryPoint history ∧ LoadsEntryPoint other ∧
      answerAfter history main = answerAfter other main := by
  intro history other main
  have hexported : main.name ∈ main.component.exported := by decide
  have hhistory : LoadsEntryPoint history := by decide
  have hother : LoadsEntryPoint other := by decide
  obtain ⟨-, hstable, -⟩ := exported_answer_stable_iff hexported history other
  exact ⟨hexported, hhistory, hother, hstable.2 fun _ => iff_of_true hhistory hother⟩

/-- The same exported name, looked up twice: the function at first, and the entry point then. -/
theorem exported_answer_unstable :
    let main : Lookup := ⟨commandLine, "main"⟩
    main.name ∈ main.component.exported ∧
      Loaded.accesses [] ([main, main].map Lookup.spelled) =
        [.ok (.function "main"), .ok (.component entryPoint)] ∧
      answerAfter [] main ≠ answerAfter [main] main := by
  intro main
  have hfirst : answerAfter [] main = .ok (.function "main") := rfl
  have hsecond : answerAfter [main] main = .ok (.component entryPoint) := rfl
  refine ⟨by decide, rfl, ?_⟩
  simp [hfirst, hsecond]

end FinalNewline
