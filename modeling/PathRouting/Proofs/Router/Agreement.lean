import PathRouting.Captures.Cursor
import PathRouting.Proofs.Method.Names
import PathRouting.Proofs.Router.Table
import PathRouting.Router.Dispatch

/-!
# Three ways to serve a request

A request can be answered by its first match, by all its matches and by the calls of their handlers.
Each answer walks the table by itself, and all of them find the same matches: those of the routes
whose method serves the one that the request names and whose pattern matches the path, in the order
of the table (`Router.matches_of_run`). The walk that calls handlers is a fold, whose invariant says
which calls were made and which route was the last (`Dispatch.value_foldlM_visit`).

A request that names a method is answered as a request of this method, in whatever case the name is
written (`Router.find?_of_ofName_ok` and its companions). If the name is that of no method, the
request finds nothing, calls nothing and is reported (`Router.find?_of_ofName_error` and its
companions).
-/

namespace PathRouting

variable {H : Type}

/-- The match of a route with a path, if its pattern matches. -/
def Route.match? (path : String) (route : Route H) : Option (RouteMatch H) :=
  (route.pattern.find? path).map (⟨route, ·⟩)

/-- The call of the handler of a match. -/
def RouteMatch.call (item : RouteMatch H) : Call H :=
  ⟨item.route.handler, item.captures⟩

/-! ## One route after another -/

theorem Route.serves_eq_decide (route : Route H) (request : Method) :
    route.serves request = decide (route.method = request ∨ route.method = .any) := by
  simp [serves, Method.serves, beq_eq_decide, Bool.or_comm]

theorem Route.match?_eq_some_iff {path : String} {route : Route H} {item : RouteMatch H} :
    route.match? path = some item ↔
      item.route = route ∧ route.pattern.find? path = some item.captures := by
  rw [match?, Option.map_eq_some_iff]
  constructor
  · rintro ⟨captures, hfind, rfl⟩
    exact ⟨rfl, hfind⟩
  · rintro ⟨rfl, hfind⟩
    exact ⟨item.captures, hfind, rfl⟩

theorem Route.map_route_filterMap_match? (path : String) (routes : List (Route H)) :
    (routes.filterMap (match? path)).map RouteMatch.route =
      routes.filter fun route => (route.pattern.find? path).isSome := by
  induction routes with
  | nil => rfl
  | cons route routes ih =>
    cases hfind : route.pattern.find? path <;> simp [match?, hfind, ih]

namespace Dispatch

theorem value_visit (path : String) (dispatch : Dispatch H) (route : Route H) :
    (visit path dispatch route).value =
      match route.match? path with
      | some item => ⟨dispatch.calls.push item.call, some item.route⟩
      | none => dispatch := by
  rw [visit, Route.find?, Route.match?]
  cases route.pattern.find? path <;> rfl

/-- The calls of the matches come behind those made before, and the last match is the current one,
if there is any. -/
theorem value_foldlM_visit (path : String) (dispatch : Dispatch H) (routes : List (Route H)) :
    let items := routes.filterMap (Route.match? path)
    let after := (routes.foldlM (visit path) dispatch).value
    after.calls.toList = dispatch.calls.toList ++ items.map RouteMatch.call ∧
      after.current? = (items.getLast?.map RouteMatch.route).or dispatch.current? := by
  rw [Logged.value_foldlM]
  induction routes generalizing dispatch with
  | nil => simp
  | cons route routes ih =>
    rw [List.foldl_cons, value_visit]
    obtain ⟨hcalls, hcurrent⟩ := ih _
    refine ⟨hcalls.trans ?_, hcurrent.trans ?_⟩
    · cases hmatch : route.match? path <;> simp [hmatch]
    · cases hmatch : route.match? path with
      | none => simp [hmatch]
      | some item =>
        cases hlast : (routes.filterMap (Route.match? path)).getLast? <;>
          simp [hmatch, hlast, List.getLast?_cons]

end Dispatch

namespace Router

variable {router : Router H} {name path : String} {method : Method} {error : RoutingError}

/-! ## Requests of a method -/

theorem matchesServing_eq (router : Router H) (method : Method) (path : String) :
    router.matchesServing method path =
      (router.serving method).filterMap (Route.match? path) := rfl

theorem findServing?_eq_head? (router : Router H) (method : Method) (path : String) :
    router.findServing? method path = (router.matchesServing method path).head? :=
  List.head?_filterMap.symm

theorem executeServing_eq (router : Router H) (method : Method) (path : String) :
    let dispatch := (router.executeServing method path).value
    dispatch.calls.toList = (router.matchesServing method path).map RouteMatch.call ∧
      dispatch.current? =
        (router.matchesServing method path).getLast?.map RouteMatch.route := by
  have hvalue : (router.executeServing method path).value =
      ((router.serving method).foldlM (Dispatch.visit path) .empty).value := by
    rw [executeServing, Logged.value_bind]
    split <;> rfl
  obtain ⟨hcalls, hcurrent⟩ :=
    Dispatch.value_foldlM_visit path Dispatch.empty (router.serving method)
  rw [hvalue]
  exact ⟨hcalls.trans (List.nil_append _), hcurrent.trans Option.or_none⟩

theorem serving_eq_filter (router : Router H) (method : Method) :
    router.serving method =
      router.toList.filter fun route => route.method = method ∨ route.method = .any := by
  simp only [serving, Route.serves_eq_decide]

/-- The routes of the matches are those that are registered for the method or for all, and whose
pattern matches the path. -/
theorem map_route_matchesServing (router : Router H) (method : Method) (path : String) :
    (router.matchesServing method path).map RouteMatch.route =
      router.toList.filter fun route =>
        (route.method = method ∨ route.method = .any) ∧ (route.pattern.find? path).isSome := by
  rw [matchesServing_eq, Route.map_route_filterMap_match?, serving_eq_filter, List.filter_filter]
  simp only [Bool.decide_and, Bool.decide_eq_true, Bool.and_comm]

theorem route_mem_serving {item : RouteMatch H} (h : item ∈ router.matchesServing method path) :
    item.route ∈ router.serving method := by
  obtain ⟨route, hroute, hmatch⟩ := List.mem_filterMap.mp h
  obtain ⟨rfl, -⟩ := Route.match?_eq_some_iff.mp hmatch
  exact hroute

theorem find?_of_mem_matchesServing {item : RouteMatch H}
    (h : item ∈ router.matchesServing method path) :
    item.route.pattern.find? path = some item.captures := by
  obtain ⟨route, -, hmatch⟩ := List.mem_filterMap.mp h
  obtain ⟨rfl, hfind⟩ := Route.match?_eq_some_iff.mp hmatch
  exact hfind

/-! ## Requests by the name of a method -/

/-- The answers to a request all come from the matches `items`. -/
structure Answers (router : Router H) (method path : String) (items : List (RouteMatch H)) :
    Prop where
  find? : (router.find? method path).value = items.head?
  findAll : (router.findAll method path).value = items
  calls : (router.execute method path).value.calls.toList = items.map RouteMatch.call
  current? : (router.execute method path).value.current? = items.getLast?.map RouteMatch.route

theorem find?_of_ofName_ok (h : Method.ofName name = .ok method) :
    router.find? name path = pure (router.findServing? method path) := by
  rw [find?, requestMethod?, h, pure_bind]

theorem findAll_of_ofName_ok (h : Method.ofName name = .ok method) :
    router.findAll name path = pure (router.matchesServing method path) := by
  rw [findAll, requestMethod?, h, pure_bind]

theorem execute_of_ofName_ok (h : Method.ofName name = .ok method) :
    router.execute name path = router.executeServing method path := by
  rw [execute, requestMethod?, h, pure_bind]

theorem answers_of_ofName_ok (h : Method.ofName name = .ok method) :
    router.Answers name path (router.matchesServing method path) where
  find? := by
    rw [find?_of_ofName_ok h, Logged.value_pure, findServing?_eq_head?]
  findAll := by
    rw [findAll_of_ofName_ok h, Logged.value_pure]
  calls := by
    rw [execute_of_ofName_ok h]
    exact (executeServing_eq router method path).1
  current? := by
    rw [execute_of_ofName_ok h]
    exact (executeServing_eq router method path).2

theorem find?_of_ofName_error (h : Method.ofName name = .error error) :
    router.find? name path = ⟨none, [.unknownRequestMethod error]⟩ := by
  rw [find?, requestMethod?, h]
  rfl

theorem findAll_of_ofName_error (h : Method.ofName name = .error error) :
    router.findAll name path = ⟨[], [.unknownRequestMethod error]⟩ := by
  rw [findAll, requestMethod?, h]
  rfl

theorem execute_of_ofName_error (h : Method.ofName name = .error error) :
    router.execute name path = ⟨.empty, [.unknownRequestMethod error]⟩ := by
  rw [execute, requestMethod?, h]
  rfl

theorem answers_of_ofName_error (h : Method.ofName name = .error error) :
    router.Answers name path [] where
  find? := by rw [find?_of_ofName_error h, List.head?_nil]
  findAll := by rw [findAll_of_ofName_error h]
  calls := by
    rw [execute_of_ofName_error h]
    rfl
  current? := by
    rw [execute_of_ofName_error h]
    rfl

/-- **All answers to a request come from the same matches.** If the request names a method, they are
those of the routes that are registered for the method or for all and whose pattern matches the
path, in the order of the table, each with what its own pattern captures; no route is among them
twice. If it names none, there are no matches. -/
theorem matches_of_run (steps : List (Step H)) (name path : String) :
    let router := (run steps).value
    let items := (router.findAll name path).value
    let dispatch := (router.execute name path).value
    (∀ method : Method, method.IsNamedBy name →
      items.map RouteMatch.route = router.toList.filter fun route =>
        (route.method = method ∨ route.method = .any) ∧ (route.pattern.find? path).isSome) ∧
    ((∀ method : Method, ¬ method.IsNamedBy name) → items = []) ∧
    (∀ item ∈ items, item.route.pattern.find? path = some item.captures) ∧
    (items.map (·.route.name)).Nodup ∧
    (router.find? name path).value = items.head? ∧
    dispatch.calls.toList = items.map RouteMatch.call ∧
    dispatch.current? = items.getLast?.map RouteMatch.route := by
  have hnames := (consistent_run steps).nodup_names
  generalize (run steps).value = router at hnames
  dsimp only
  rcases Method.ofName_cases name with ⟨method, hname, hok⟩ | ⟨hnone, herror⟩
  · have hanswers : router.Answers name path (router.matchesServing method path) :=
      answers_of_ofName_ok hok
    have hroutes := map_route_matchesServing router method path
    rw [hanswers.findAll]
    refine ⟨fun other hother => ?_, fun hnone => absurd hname (hnone method),
      fun item => find?_of_mem_matchesServing, ?_, hanswers.find?, hanswers.calls,
      hanswers.current?⟩
    · rw [hname.unique hother]
      exact hroutes
    · have hdistinct : (((router.matchesServing method path).map RouteMatch.route).map
          Route.name).Nodup := by
        rw [hroutes]
        exact hnames.sublist (List.filter_sublist.map Route.name)
      rwa [List.map_map] at hdistinct
  · have hanswers : router.Answers name path [] := answers_of_ofName_error herror
    rw [hanswers.findAll]
    exact ⟨fun method hname => absurd hname (hnone method), fun _ => rfl, by simp, .nil,
      hanswers.find?, hanswers.calls, hanswers.current?⟩

/-- Of five routes three overlap at a path: two with the text of the path, written with and without
a slash at its end, and one with a placeholder in front of them. A route for another method and one
with another text are left out. -/
theorem matches_of_run_of_overlapping_routes :
    let router : Router Nat := (run [.register .get "/{x}" 1, .register .any "/a" 2,
      .registerNamed .post "/a" "create" 3, .registerNamed .get "/a/" "show" 4,
      .register .get "/b" 5]).value
    let values (item : RouteMatch Nat) := (item.route.handler, item.captures.toList)
    let items := (router.findAll "gEt" "/a").value
    let dispatch := (router.execute "gEt" "/a").value
    Method.get.IsNamedBy "gEt" ∧
    items.map (·.route.name) = ["/{x}", "/a", "show"] ∧
    items.map values = [(1, [("x", "a")]), (2, []), (4, [])] ∧
    (router.find? "gEt" "/a").value.map values = some (1, [("x", "a")]) ∧
    dispatch.calls.toList.map (fun call => (call.handler, call.captures.toList)) =
      [(1, [("x", "a")]), (2, []), (4, [])] ∧
    dispatch.current?.map (·.name) = some "show" := by
  intro router values items dispatch
  have hget : Method.get.IsNamedBy "gEt" := Method.ofName_eq_ok_iff.mp (by decide +kernel)
  obtain ⟨hroutes, -, -, -, hfirst, hcalls, hlast⟩ := matches_of_run [.register .get "/{x}" 1,
    .register .any "/a" 2, .registerNamed .post "/a" "create" 3, .registerNamed .get "/a/" "show" 4,
    .register .get "/b" 5] "gEt" "/a"
  have hnames : items.map (·.route.name) = ["/{x}", "/a", "show"] := by
    have hfilter := congrArg (List.map Route.name) (hroutes .get hget)
    rw [List.map_map] at hfilter
    exact hfilter.trans (by decide +kernel)
  have hvalues : items.map values = [(1, [("x", "a")]), (2, []), (4, [])] := by decide +kernel
  refine ⟨hget, hnames, hvalues, ?_, ?_, ?_⟩
  · rw [hfirst, ← List.head?_map, hvalues]
    rfl
  · rw [hcalls, List.map_map]
    exact hvalues
  · rw [hlast, Option.map_map, ← List.getLast?_map]
    exact congrArg List.getLast? hnames

end Router

end PathRouting
