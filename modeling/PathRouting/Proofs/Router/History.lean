import PathRouting.Proofs.Router.Table

/-!
# A router and its history

The history of a run says all about its router. The names in the table are those of the history,
each once, in the order in which they were first used (`Entry.map_name_table`), and the route of a
name is that of the latest registration under it (`Entry.find?_table`). Both are folds over the
history, so that each follows from what one more registration does.
-/

namespace PathRouting

variable {H : Type}

namespace Entry

/-- The names of some registrations, each once, in the order in which they were first used. -/
def names (entries : List (Entry H)) : List String :=
  (entries.map Entry.name).eraseDups

/-- The latest of some registrations under a name. -/
def latest? (entries : List (Entry H)) (name : String) : Option (Entry H) :=
  entries.reverse.find? (·.name = name)

theorem names_concat (entries : List (Entry H)) (entry : Entry H) :
    names (entries ++ [entry]) =
      if entry.name ∈ names entries then names entries else names entries ++ [entry.name] := by
  simp only [names, List.map_append, List.map_singleton, List.eraseDups_append, List.mem_eraseDups]
  generalize entries.map Entry.name = texts
  split
  case isTrue h => simp [List.removeAll, h]
  case isFalse h => simp [List.removeAll, h, List.eraseDups_cons]

theorem latest?_concat (entries : List (Entry H)) (entry : Entry H) (name : String) :
    latest? (entries ++ [entry]) name =
      if entry.name = name then some entry else latest? entries name := by
  rw [latest?, List.reverse_concat, List.find?_cons, latest?]
  by_cases h : entry.name = name <;> simp [h]

theorem map_name_table (entries : List (Entry H)) :
    (table entries).map Route.name = names entries := by
  induction entries using List.reverseRecOn with
  | nil => rfl
  | append_singleton entries entry ih =>
    rw [table_concat, Route.map_name_put, ih, names_concat]
    rfl

theorem find?_table (entries : List (Entry H)) (name : String) :
    (table entries).find? (·.name = name) = (latest? entries name).map route := by
  induction entries using List.reverseRecOn with
  | nil => rfl
  | append_singleton entries entry ih =>
    rw [table_concat, Route.find?_put, ih, latest?_concat, apply_ite (Option.map route)]
    rfl

end Entry

namespace Router

/-- **A router is the ordered table of its history**, keyed by name: every name stands once, in the
order in which the names were first used, and for the route that was registered last under it. An
insertion leaves the routes of other names as and where they are. -/
theorem table_of_history (steps : List (Step H)) :
    let router := (run steps).value
    let history := Step.history steps
    router.toList.map Route.name = Entry.names history ∧
    (∀ route ∈ router.toList,
      (Entry.latest? history route.name).map Entry.route = some route) ∧
    router.size = (Entry.names history).length ∧
    (∀ name, router.byName? name = (Entry.latest? history name).map Entry.route) ∧
    ∀ (entry : Entry H) (place : Nat) (route : Route H),
      router.toList[place]? = some route → route.name ≠ entry.name →
        (router.insertEntry entry).value.toList[place]? = some route := by
  have h := consistent_run steps
  have htable := toList_run steps
  generalize (run steps).value = router at h htable
  have hnames : router.toList.map Route.name = Entry.names (Step.history steps) := by
    rw [htable, Entry.map_name_table]
  have hfind (name : String) :
      router.byName? name = (Entry.latest? (Step.history steps) name).map Entry.route := by
    rw [h.byName?_eq_find?, htable, Entry.find?_table]
  refine ⟨hnames, fun route hroute => ?_, ?_, hfind, fun entry place route hroute hne => ?_⟩
  · rw [← hfind, h.byName?_eq_find?]
    exact Route.find?_of_mem h.nodup_names hroute
  · rw [← hnames, List.length_map]
    rfl
  · rw [insertEntry, Logged.value_map, h.toList_insert]
    exact Route.getElem?_put_of_ne hroute hne

/-- A route without a name takes the place of any route that goes by the text of its pattern. -/
example : (run [.register .get "/a" 1, .register .get "/b" 2, .registerNamed .put "/c" "/a" 3,
    .tryRegister "POST" "/b" none 4, .tryRegister "none" "/d" none 5]).value.toList.map
      Route.handler = [3, 4] := by
  decide +kernel

end Router

end PathRouting
