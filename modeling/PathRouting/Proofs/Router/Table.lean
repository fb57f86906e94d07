import Mathlib.Data.List.Induction
import PathRouting.Proofs.Lookup
import PathRouting.Proofs.Router.Steps

/-!
# A router as a table

A router is consistent if its index and its table agree: the place of a name is where a route of
this name stands (`Router.Consistent`). An insertion into a consistent router puts the route in the
place of the one with its name, and at the end of the table if there is none
(`Router.Consistent.toList_insert`), and the router stays consistent (`Router.Consistent.insert`).

Every run leaves a consistent router, whose table is that of the history of the run
(`Router.holds_run`).
-/

namespace PathRouting

variable {H : Type}

/-! ## Tables of routes -/

namespace Route

/-- Puts a route in the place of the one with its name, and at the end if there is none. -/
def put (route : Route H) : List (Route H) → List (Route H)
  | [] => [route]
  | old :: routes => if old.name = route.name then route :: routes else old :: put route routes

variable {route other : Route H} {routes : List (Route H)} {place : Nat}

theorem put_of_notMem (h : route.name ∉ routes.map name) :
    put route routes = routes ++ [route] := by
  induction routes with
  | nil => rfl
  | cons old routes ih =>
    obtain ⟨hold, hroutes⟩ := not_or.mp (mt List.mem_cons.mpr h)
    rw [put, if_neg (Ne.symm hold), ih hroutes, List.cons_append]

theorem put_of_getElem? (hnodup : (routes.map name).Nodup)
    (h : (routes.map name)[place]? = some route.name) :
    put route routes = routes.set place route := by
  induction routes generalizing place with
  | nil => simp at h
  | cons old routes ih =>
    obtain ⟨hold, hroutes⟩ := List.nodup_cons.mp hnodup
    cases place with
    | zero =>
      rw [put, if_pos (by simpa using h)]
      rfl
    | succ place =>
      have hrest : (routes.map name)[place]? = some route.name := by simpa using h
      have hne : old.name ≠ route.name := fun e => hold (e ▸ List.mem_of_getElem? hrest)
      rw [put, if_neg hne, ih hroutes hrest, List.set_cons_succ]

theorem map_name_put (route : Route H) (routes : List (Route H)) :
    (put route routes).map name =
      if route.name ∈ routes.map name then routes.map name
      else routes.map name ++ [route.name] := by
  induction routes with
  | nil => simp [put]
  | cons old routes ih =>
    by_cases hold : old.name = route.name
    · simp [put, hold]
    · rw [put, if_neg hold, List.map_cons, ih]
      split <;> simp_all [Ne.symm hold]

theorem mem_put (h : other ∈ put route routes) : other = route ∨ other ∈ routes := by
  induction routes with
  | nil => exact .inl (List.mem_singleton.mp h)
  | cons old routes ih =>
    rw [put] at h
    split at h
    case isTrue => exact (List.mem_cons.mp h).imp_right (List.mem_cons_of_mem old)
    case isFalse =>
      rcases List.mem_cons.mp h with rfl | h
      · exact .inr List.mem_cons_self
      · exact (ih h).imp_right (List.mem_cons_of_mem old)

/-- Routes of other names keep their places. -/
theorem getElem?_put_of_ne (h : routes[place]? = some other) (hne : other.name ≠ route.name) :
    (put route routes)[place]? = some other := by
  induction routes generalizing place with
  | nil => simp at h
  | cons old routes ih =>
    rw [put]
    cases place with
    | zero =>
      obtain rfl : old = other := by simpa using h
      rw [if_neg hne, List.getElem?_cons_zero]
    | succ place =>
      have hrest : routes[place]? = some other := by simpa using h
      split
      · simpa using hrest
      · simpa using ih hrest

theorem find?_put (route : Route H) (routes : List (Route H)) (text : String) :
    (put route routes).find? (·.name = text) =
      if route.name = text then some route else routes.find? (·.name = text) := by
  induction routes with
  | nil => by_cases htext : route.name = text <;> simp [put, htext]
  | cons old routes ih =>
    by_cases hold : old.name = route.name
    · by_cases htext : route.name = text <;> simp [put, hold, htext]
    · rw [put, if_neg hold, List.find?_cons, List.find?_cons, ih]
      by_cases htext : route.name = text
      · subst htext
        simp [hold]
      · simp [htext]

/-- Where names are distinct, a route is the one of its name. -/
theorem find?_of_mem (hnodup : (routes.map name).Nodup) (h : route ∈ routes) :
    routes.find? (·.name = route.name) = some route :=
  (find?_key_eq_some_iff hnodup).mpr ⟨h, rfl⟩

end Route

namespace Entry

/-- The table of some registrations, one after another. -/
def table (entries : List (Entry H)) : List (Route H) :=
  entries.foldl (fun routes entry => entry.route.put routes) []

theorem table_concat (entries : List (Entry H)) (entry : Entry H) :
    table (entries ++ [entry]) = entry.route.put (table entries) := by
  rw [table, List.foldl_concat, table]

theorem exists_of_mem_table {entries : List (Entry H)} {route : Route H}
    (h : route ∈ table entries) : ∃ entry ∈ entries, entry.route = route := by
  induction entries using List.reverseRecOn with
  | nil => exact absurd h List.not_mem_nil
  | append_singleton entries entry ih =>
    rw [table_concat] at h
    rcases Route.mem_put h with rfl | h
    · exact ⟨entry, by simp, rfl⟩
    · obtain ⟨old, hold, rfl⟩ := ih h
      exact ⟨old, by simp [hold], rfl⟩

end Entry

namespace Router

/-! ## Consistent routers -/

/-- The place of a name is where a route of this name stands, and no other names have places. -/
structure Consistent (router : Router H) : Prop where
  names_eq_some_iff : ∀ (name : String) (place : Nat),
    router.names[name]? = some place ↔ (router.toList.map Route.name)[place]? = some name
  size_names : router.names.size = router.size

theorem consistent_empty : (empty : Router H).Consistent where
  names_eq_some_iff name place := by simp [empty, toList]
  size_names := rfl

variable {router : Router H} {route : Route H} {name : String} {place : Nat}

namespace Consistent

theorem nodup_names (h : router.Consistent) : (router.toList.map Route.name).Nodup := by
  rw [List.nodup_iff_getElem?_ne_getElem?]
  intro i j hij hj heq
  have hplace := List.getElem?_eq_getElem hj
  have hi := (h.names_eq_some_iff _ i).mpr (heq.trans hplace)
  have hj := (h.names_eq_some_iff _ j).mpr hplace
  exact Nat.ne_of_lt hij (Option.some.inj (hi.symm.trans hj))

theorem names_eq_none_iff (h : router.Consistent) (name : String) :
    router.names[name]? = none ↔ name ∉ router.toList.map Route.name := by
  rw [List.mem_iff_getElem?, not_exists, Option.eq_none_iff_forall_ne_some]
  exact forall_congr' fun place => not_congr (h.names_eq_some_iff name place)

/-- The route of a name is the only one in the table that goes by it. -/
theorem byName?_eq_find? (h : router.Consistent) (name : String) :
    router.byName? name = router.toList.find? (·.name = name) := by
  rw [byName?, placeOf?]
  cases hname : router.names[name]? with
  | none =>
    symm
    simpa using (h.names_eq_none_iff name).mp hname
  | some place =>
    have hplace := (h.names_eq_some_iff name place).mp hname
    rw [List.getElem?_map] at hplace
    obtain ⟨route, hroute, rfl⟩ := Option.map_eq_some_iff.mp hplace
    rw [Option.bind_some, Route.find?_of_mem h.nodup_names (List.mem_of_getElem? hroute)]
    simpa [toList] using hroute

end Consistent

/-! ## Insertions -/

theorem value_insert_of_some (h : router.names[route.name]? = some place) :
    (router.insert route).value =
      ⟨{ router with routes := router.routes.setIfInBounds place route }, place⟩ := by
  simp [insert, h]

theorem value_insert_of_none (h : router.names[route.name]? = none) :
    (router.insert route).value =
      ⟨⟨router.routes.push route, router.names.insert route.name router.size⟩, router.size⟩ := by
  simp [insert, h, size]

namespace Consistent

/-- **An insertion puts the route into the table.** -/
theorem toList_insert (h : router.Consistent) (route : Route H) :
    (router.insert route).value.router.toList = route.put router.toList := by
  cases hname : router.names[route.name]? with
  | none =>
    rw [value_insert_of_none hname, Route.put_of_notMem ((h.names_eq_none_iff _).mp hname)]
    simp [toList]
  | some place =>
    rw [value_insert_of_some hname,
      Route.put_of_getElem? h.nodup_names ((h.names_eq_some_iff _ place).mp hname)]
    simp [toList]

theorem lt_size_of_names (h : router.Consistent) (hname : router.names[name]? = some place) :
    place < router.size := by
  obtain ⟨hlt, -⟩ := List.getElem?_eq_some_iff.mp ((h.names_eq_some_iff name place).mp hname)
  simpa only [toList, size, List.length_map, Array.length_toList] using hlt

/-- The inserted route stands at the place that the insertion reports. -/
theorem route?_insert (h : router.Consistent) (route : Route H) :
    (router.insert route).value.route? = some route := by
  cases hname : router.names[route.name]? with
  | none => simp [value_insert_of_none hname, Registration.route?, size]
  | some place =>
    have hlt : place < router.routes.size := h.lt_size_of_names hname
    simp [value_insert_of_some hname, Registration.route?, hlt]

theorem map_name_toList_insert (h : router.Consistent) (route : Route H) :
    (router.insert route).value.router.toList.map Route.name =
      if route.name ∈ router.toList.map Route.name then router.toList.map Route.name
      else router.toList.map Route.name ++ [route.name] := by
  rw [h.toList_insert, Route.map_name_put]

theorem getElem?_concat_eq_some_iff {names : List String} {last name : String} {place : Nat} :
    (names ++ [last])[place]? = some name ↔
      (place = names.length ∧ last = name) ∨ names[place]? = some name := by
  grind

theorem insert (h : router.Consistent) (route : Route H) :
    (router.insert route).value.router.Consistent := by
  have hnames := h.map_name_toList_insert route
  cases hname : router.names[route.name]? with
  | none =>
    -- a new name: its place is behind all others
    have hmem := (h.names_eq_none_iff _).mp hname
    have hsize : router.size = (router.toList.map Route.name).length := by simp [size, toList]
    rw [if_neg hmem] at hnames
    refine ⟨fun name place => ?_, ?_⟩
    · rw [hnames, value_insert_of_none hname, Std.TreeMap.getElem?_insert, hsize,
        getElem?_concat_eq_some_iff]
      simp only [Std.LawfulEqCmp.compare_eq_iff_eq]
      split
      case isTrue heq =>
        subst heq
        have hplace : (router.toList.map Route.name)[place]? ≠ some route.name :=
          fun hplace => hmem (List.mem_of_getElem? hplace)
        rw [or_iff_left hplace, and_iff_left rfl, Option.some.injEq, eq_comm]
      case isFalse hne => simp [hne, h.names_eq_some_iff]
    · have hnew : route.name ∉ router.names := by
        simp [Std.TreeMap.mem_iff_isSome_getElem?, hname]
      rw [value_insert_of_none hname]
      simp [Std.TreeMap.size_insert, hnew, h.size_names, size]
  | some place =>
    -- the replaced route goes by the same name, so that the index is right as it is
    have hmem := List.mem_of_getElem? ((h.names_eq_some_iff _ place).mp hname)
    rw [if_pos hmem] at hnames
    refine ⟨fun name place => ?_, ?_⟩
    · rw [hnames, value_insert_of_some hname]
      exact h.names_eq_some_iff name place
    · rw [value_insert_of_some hname]
      simpa [size] using h.size_names

end Consistent

/-! ## Runs -/

/-- A router holds the table of some registrations. -/
structure Holds (router : Router H) (entries : List (Entry H)) : Prop where
  consistent : router.Consistent
  toList_eq : router.toList = Entry.table entries

theorem holds_empty : (empty : Router H).Holds [] :=
  ⟨consistent_empty, rfl⟩

theorem Holds.concat {entries : List (Entry H)} (h : router.Holds entries) (entry : Entry H) :
    (router.insertEntry entry).value.Holds (entries ++ [entry]) := by
  rw [insertEntry, Logged.value_map]
  refine ⟨h.consistent.insert entry.route, ?_⟩
  rw [h.consistent.toList_insert, h.toList_eq, Entry.table_concat]

/-- A router holds the table of its history. -/
theorem holds_run (steps : List (Step H)) : (run steps).value.Holds (Step.history steps) :=
  run_induction (P := fun history router => router.Holds history)
    (fun _ _ entry h => h.concat entry) holds_empty steps

theorem consistent_run (steps : List (Step H)) : (run steps).value.Consistent :=
  (holds_run steps).consistent

theorem toList_run (steps : List (Step H)) :
    (run steps).value.toList = Entry.table (Step.history steps) :=
  (holds_run steps).toList_eq

/-- **The index and the table of a router agree after every run**, and every route is compiled from
the text of its own pattern. No place is out of range: neither one of the index nor the one that an
insertion reports. -/
theorem index_and_table_of_run (steps : List (Step H)) :
    let router := (run steps).value
    (∀ (name : String) (place : Nat), router.names[name]? = some place →
      ∃ h : place < router.routes.size, router.routes[place].name = name) ∧
    (∀ (place : Nat) (h : place < router.routes.size),
      router.names[router.routes[place].name]? = some place) ∧
    (router.routes.toList.map Route.name).Nodup ∧
    router.names.size = router.routes.size ∧
    (∀ route : Route H, (router.insert route).value.route? = some route) ∧
    ∀ route ∈ router.routes.toList,
      route.pattern.segments = Segment.compile route.pattern.source ∧
        route.pattern.normalized = Path.normalize route.pattern.source := by
  have h := consistent_run steps
  have htable := toList_run steps
  generalize (run steps).value = router at h htable
  refine ⟨fun name place hname => ?_, fun place hplace => ?_, h.nodup_names, h.size_names,
    h.route?_insert, fun route hroute => ?_⟩
  · have hlt : place < router.routes.size := h.lt_size_of_names hname
    have hentry := (h.names_eq_some_iff name place).mp hname
    rw [toList, List.getElem?_map, Array.getElem?_toList, Array.getElem?_eq_getElem hlt] at hentry
    exact ⟨hlt, Option.some.inj hentry⟩
  · refine (h.names_eq_some_iff _ place).mpr ?_
    simp [toList, hplace]
  · have hmem : route ∈ Entry.table (Step.history steps) := htable ▸ hroute
    obtain ⟨entry, -, rfl⟩ := Entry.exists_of_mem_table hmem
    exact ⟨rfl, rfl⟩

end Router

end PathRouting
