import PathRouting.Proofs.Router.Agreement

/-!
# What requests report

A request whose handlers are called reports every route that serves its method, in the order of the
table: that it matches, with the number of values that its handler gets, or that it is skipped. If
no handler is called, this is reported at last (`Router.events_executeServing`). So the lines of
matches in a log and the calls of handlers come from the same matches (`Router.log_of_request`).
-/

namespace PathRouting

variable {H : Type}

/-! ## Lines of a log -/

/-- The line of a match. -/
def RouteMatch.line (item : RouteMatch H) : Event.Line :=
  ⟨"TRACE", "route matched",
    [("name", .text item.route.name), ("captures", .count item.captures.size)]⟩

/-- The line of a route that serves the method of a request for a path. -/
def Route.line (path : String) (route : Route H) : Event.Line :=
  match route.match? path with
  | some item => item.line
  | none => ⟨"TRACE", "route skipped", [("name", .text route.name)]⟩

/-- The line of a request for which no handler is called. -/
def Method.unmatchedLine (method : Method) (path : String) : Event.Line :=
  ⟨"DEBUG", "no route matched", [("method", .text method.name), ("path", .text path)]⟩

/-- The line of a request whose method has a name that is none. -/
def Method.unknownLine (name : String) : Event.Line :=
  ⟨"DEBUG", "unknown request method",
    [("error", .text (Text.quote name ++ " is not a valid method name"))]⟩

/-- Among the lines of routes, those of matches are known by their message. -/
theorem Route.filter_line_eq (path : String) (routes : List (Route H)) :
    (routes.map (line path)).filter (·.message = "route matched") =
      (routes.filterMap (match? path)).map RouteMatch.line := by
  induction routes with
  | nil => rfl
  | cons route routes ih =>
    rw [List.map_cons, List.filter_cons, ih]
    cases hmatch : route.match? path <;> simp [line, RouteMatch.line, hmatch]

/-! ## One route after another -/

/-- What a route that serves the method of a request reports. -/
def Route.report (path : String) (route : Route H) : Event :=
  match route.match? path with
  | some item => .routeMatched route.name item.captures.size
  | none => .routeSkipped route.name

theorem Route.line_report (path : String) (route : Route H) :
    (route.report path).line = route.line path := by
  rw [report, line]
  cases hmatch : route.match? path with
  | none => rfl
  | some item =>
    rw [← (match?_eq_some_iff.mp hmatch).1]
    rfl

theorem Dispatch.events_visit (path : String) (dispatch : Dispatch H) (route : Route H) :
    (visit path dispatch route).events = [route.report path] := by
  rw [visit, Route.find?, Route.report, Route.match?]
  cases route.pattern.find? path <;> rfl

namespace Router

/-- **All routes that serve the method report in order**, and at last it is reported if none of them
matches. -/
theorem events_executeServing (router : Router H) (method : Method) (path : String) :
    (router.executeServing method path).events =
      (router.serving method).map (Route.report path) ++
        if (router.matchesServing method path).isEmpty then [.noRouteMatched method path]
        else [] := by
  have hfold : ((router.serving method).foldlM (Dispatch.visit path) .empty).events =
      (router.serving method).map (Route.report path) := by
    rw [Logged.events_foldlM (Dispatch.events_visit path), List.map_eq_flatMap]
  have hcurrent : ((router.serving method).foldlM (Dispatch.visit path)
      .empty).value.current?.isNone = (router.matchesServing method path).isEmpty := by
    rw [(Dispatch.value_foldlM_visit path Dispatch.empty _).2, ← matchesServing_eq]
    cases router.matchesServing method path <;> simp [Dispatch.empty, List.getLast?_cons]
  rw [executeServing, Logged.events_bind, hfold, hcurrent]
  split <;> simp

theorem log_executeServing (router : Router H) (method : Method) (path : String) :
    (router.executeServing method path).events.map Event.line =
      (router.serving method).map (Route.line path) ++
        if (router.executeServing method path).value.calls.isEmpty then [method.unmatchedLine path]
        else [] := by
  rw [← Array.isEmpty_toList, (executeServing_eq router method path).1, List.isEmpty_map,
    events_executeServing, List.map_append, List.map_map]
  congr 1
  · exact List.map_congr_left fun route _ => Route.line_report path route
  · rw [apply_ite (List.map Event.line)]
    rfl

/-- **The log of a request tells which handlers are called.** If its method is known, each route
that serves the method leaves one line in the order of the table, and one more line follows exactly
if no handler is called; the calls of handlers are those of the lines of matches, one by one.
Otherwise the only line says that the method is unknown, and no handler is called. -/
theorem log_of_request (router : Router H) (name path : String) :
    let done := router.execute name path
    let log := done.events.map Event.line
    (∀ method : Method, method.IsNamedBy name →
      let serving := router.toList.filter fun route =>
        route.method = method ∨ route.method = .any
      log = serving.map (Route.line path) ++
        (if done.value.calls.isEmpty then [method.unmatchedLine path] else []) ∧
      ∃ items : List (RouteMatch H),
        (∀ item ∈ items, item.route ∈ serving ∧
          item.route.pattern.find? path = some item.captures) ∧
        done.value.calls.toList = items.map RouteMatch.call ∧
        log.filter (·.message = "route matched") = items.map RouteMatch.line) ∧
    ((∀ method : Method, ¬ method.IsNamedBy name) →
      log = [Method.unknownLine name] ∧ done.value.calls = #[]) := by
  refine ⟨fun method hname => ?_, fun hnone => ?_⟩
  · have hok := Method.ofName_eq_ok_iff.mpr hname
    have hserving := serving_eq_filter router method
    have hcalls := (executeServing_eq router method path).1
    have hlog := log_executeServing router method path
    dsimp only
    rw [execute_of_ofName_ok hok, ← hserving]
    refine ⟨hlog, router.matchesServing method path, fun item hitem => ?_, hcalls, ?_⟩
    · exact ⟨route_mem_serving hitem, find?_of_mem_matchesServing hitem⟩
    · have hlast : (if (router.executeServing method path).value.calls.isEmpty then
          [method.unmatchedLine path] else []).filter (·.message = "route matched") = [] := by
        split <;> rfl
      rw [hlog, List.filter_append, Route.filter_line_eq, ← matchesServing_eq, hlast,
        List.append_nil]
  · rw [execute_of_ofName_error (Method.ofName_eq_error_iff.mpr hnone)]
    exact ⟨rfl, rfl⟩

/-- A route matches and another one is skipped, and neither a third one for another method nor a
request for a method that no route can serve is reported by a route. -/
theorem log_of_request_of_three_routes :
    let router : Router Nat := (run [.register .any "/a/{x}" 1, .register .post "/a/7" 2,
      .registerNamed .get "/b" "b" 3]).value
    Method.get.IsNamedBy "gEt" ∧
    (router.execute "gEt" "/a/7/").events.map Event.line =
      [⟨"TRACE", "route matched", [("name", .text "/a/{x}"), ("captures", .count 1)]⟩,
        ⟨"TRACE", "route skipped", [("name", .text "b")]⟩] ∧
    (∀ method : Method, ¬ method.IsNamedBy "trace") ∧
    (router.execute "trace" "/b").events.map Event.line = [Method.unknownLine "trace"] := by
  intro router
  have hget : Method.get.IsNamedBy "gEt" := Method.ofName_eq_ok_iff.mp (by decide +kernel)
  have htrace : ∀ method : Method, ¬ method.IsNamedBy "trace" :=
    Method.ofName_eq_error_iff.mp (by decide +kernel)
  refine ⟨hget, ?_, htrace, ((log_of_request router "trace" "/b").2 htrace).1⟩
  exact ((log_of_request router "gEt" "/a/7/").1 .get hget).1.trans (by decide +kernel)

end Router

end PathRouting
