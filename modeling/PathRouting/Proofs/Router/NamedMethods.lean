import PathRouting.Proofs.Router.RegistrationLog

/-!
# Registrations by the name of a method

A registration that names its method is the one for this method, in whatever case the name is
written (`Router.tryRegister_of_ofName_ok`), and fails without a trace if no method has the name
(`Action.run_tryRegister_of_ofName_error`). An inserted route is the one that its name finds from
then on, whether it stands behind the others or in the place of one of them
(`Router.Consistent.byName?_insert`).
-/

namespace PathRouting

variable {H : Type}

namespace Router

/-- Registers a route under a name if there is one, and else under the text of its pattern. -/
def registerAs (router : Router H) (method : Method) (pattern : String) (name? : Option String)
    (handler : H) : Logged (Router H) :=
  match name? with
  | none => router.register method pattern handler
  | some name => router.registerNamed method pattern name handler

theorem router_map_insert (router : Router H) (method : Method) (pattern : String)
    (name? : Option String) (handler : H) :
    Registration.router <$> router.insert (.ofPattern method pattern name? handler) =
      router.registerAs method pattern name? handler := by
  cases name? <;> rfl

/-! ## Known and unknown names -/

section NamedMethod

variable {router : Router H} {method : Method} {text pattern : String} {name? : Option String}
  {handler : H} {error : RoutingError}

theorem tryRegister_of_ofName_ok (h : Method.ofName text = .ok method) :
    router.tryRegister text pattern name? handler =
      .ok (router.insert (.ofPattern method pattern name? handler)) := by
  rw [tryRegister, h]
  rfl

theorem tryRegister_of_ofName_error (h : Method.ofName text = .error error) :
    router.tryRegister text pattern name? handler = .error error := by
  rw [tryRegister, h]
  rfl

/-- A registration fails exactly if no method has the name. -/
theorem tryRegister_eq_error_iff :
    router.tryRegister text pattern name? handler = .error error ↔
      (∀ known : Method, ¬ known.IsNamedBy text) ∧ error = .invalidMethod text := by
  rcases Method.ofName_cases text with ⟨known, hname, hok⟩ | ⟨hnone, herror⟩
  · rw [tryRegister_of_ofName_ok hok]
    exact iff_of_false nofun fun h => h.1 known hname
  · rw [tryRegister_of_ofName_error herror, Except.error.injEq, and_iff_right hnone, eq_comm]

end NamedMethod

end Router

theorem Action.run_tryRegister_of_ofName_error {router : Router H} {text pattern : String}
    {name? : Option String} {handler : H} {error : RoutingError}
    (h : Method.ofName text = .error error) :
    (Action.change (.tryRegister text pattern name? handler)).run router = pure router := by
  rw [run, Step.run, Router.tryRegister_of_ofName_error h]

namespace Router

/-- A call that leaves every router as it is and reports nothing might as well not be made. -/
theorem session_append_cons {action : Action H}
    (h : ∀ router : Router H, action.run router = pure router) (actions later : List (Action H)) :
    session (actions ++ action :: later) = session (actions ++ later) := by
  simp only [session, List.foldlM_append, List.foldlM_cons, h, pure_bind]

/-! ## The inserted route -/

namespace Consistent

variable {router : Router H} {route old : Route H} {place : Nat}

/-- An inserted route is the one of its name. -/
theorem byName?_insert (h : router.Consistent) (route : Route H) :
    (router.insert route).value.router.byName? route.name = some route := by
  rw [(h.insert route).byName?_eq_find?, h.toList_insert, Route.find?_put, if_pos rfl]

/-- A route takes the place of the one with its name. -/
theorem insert_of_getElem? (h : router.Consistent) (hold : router.toList[place]? = some old)
    (hname : old.name = route.name) :
    (router.insert route).value.place = place ∧
      (router.insert route).value.router.toList = router.toList.set place route := by
  have hplace : router.names[route.name]? = some place := by
    rw [h.names_eq_some_iff, List.getElem?_map, hold, Option.map_some, hname]
  rw [value_insert_of_some hplace]
  exact ⟨rfl, Array.toList_setIfInBounds⟩

/-- A route with a new name goes to the end. -/
theorem insert_of_notMem (h : router.Consistent)
    (hnew : route.name ∉ router.toList.map Route.name) :
    (router.insert route).value.place = router.size ∧
      (router.insert route).value.router.toList = router.toList ++ [route] := by
  rw [value_insert_of_none ((h.names_eq_none_iff _).mpr hnew)]
  exact ⟨rfl, Array.toList_push⟩

end Consistent

/-- **A registration that names its method** fails exactly if no method has the name up to case, and
then everything goes on as if it had not been tried. Otherwise it does the same as the registration
for the method, and gives the route that its name then finds: the one it was asked for, in the place
of the earlier route of this name or else behind all others. -/
theorem tryRegister_of_session (actions : List (Action H)) (text pattern : String)
    (name? : Option String) (handler : H) :
    let router := (session actions).value
    let name := name?.getD pattern
    let attempt := router.tryRegister text pattern name? handler
    let action := Action.change (.tryRegister text pattern name? handler)
    ((∃ error, attempt = .error error) ↔ ∀ known : Method, ¬ known.IsNamedBy text) ∧
    (∀ error, attempt = .error error →
      error = .invalidMethod text ∧
      action.run router = pure router ∧
      ∀ later, session (actions ++ action :: later) = session (actions ++ later)) ∧
    ∀ method : Method, method.IsNamedBy text → ∃ done : Logged (Registration H),
      attempt = .ok done ∧
      Registration.router <$> done = router.registerAs method pattern name? handler ∧
      ∃ route : Route H,
        done.value.route? = some route ∧
        done.value.router.byName? name = some route ∧
        (route.name = name ∧ route.method = method ∧ route.pattern = .compile pattern ∧
          route.handler = handler) ∧
        (∀ (place : Nat) (old : Route H), router.toList[place]? = some old → old.name = name →
          done.value.place = place ∧
            done.value.router.toList = router.toList.set place route) ∧
        (name ∉ router.toList.map Route.name →
          done.value.place = router.size ∧
            done.value.router.toList = router.toList ++ [route]) := by
  have hconsistent := (holds_session actions).consistent
  intro router name attempt action
  refine ⟨?_, fun error herror => ?_, fun method hmethod => ?_⟩
  · simp only [attempt, tryRegister_eq_error_iff, exists_and_left, exists_eq, and_true]
  · obtain ⟨hnone, rfl⟩ := tryRegister_eq_error_iff.mp herror
    have hrun (router : Router H) : action.run router = pure router :=
      Action.run_tryRegister_of_ofName_error (Method.ofName_eq_error_iff.mpr hnone)
    exact ⟨rfl, hrun router, session_append_cons hrun actions⟩
  · refine ⟨_, tryRegister_of_ofName_ok (Method.ofName_eq_ok_iff.mpr hmethod),
      router_map_insert router method pattern name? handler, _, hconsistent.route?_insert _,
      hconsistent.byName?_insert _, ⟨rfl, rfl, rfl, rfl⟩, fun place old hold hname => ?_,
      fun hnew => ?_⟩
    · exact hconsistent.insert_of_getElem? hold hname
    · exact hconsistent.insert_of_notMem hnew

/-- The second of three routes is replaced; a name with a letter that only looks like one of `post`
changes nothing. -/
theorem tryRegister_of_session_of_second_route :
    let actions : List (Action Nat) := [.change (.register .get "/a" 1),
      .change (.registerNamed .get "/b" "b" 2), .change (.register .get "/c" 3)]
    let router := (session actions).value
    (∀ known : Method, ¬ known.IsNamedBy "poſt") ∧
    router.tryRegister "poſt" "/d" (some "b") 4 = .error (.invalidMethod "poſt") ∧
    session (actions ++ [.change (.tryRegister "poſt" "/d" (some "b") 4)]) = session actions ∧
    Method.post.IsNamedBy "PoSt" ∧
    ∃ done, router.tryRegister "PoSt" "/d" (some "b") 4 = .ok done ∧ done.value.place = 1 ∧
      done.value.router.toList.map Route.handler = [1, 4, 3] := by
  intro actions router
  have hnone : ∀ known : Method, ¬ known.IsNamedBy "poſt" :=
    Method.ofName_eq_error_iff.mp (by decide +kernel)
  have hpost : Method.post.IsNamedBy "PoSt" := Method.ofName_eq_ok_iff.mp (by decide +kernel)
  obtain ⟨hfails, hsame, -⟩ := tryRegister_of_session actions "poſt" "/d" (some "b") 4
  obtain ⟨-, -, hdone⟩ := tryRegister_of_session actions "PoSt" "/d" (some "b") 4
  obtain ⟨error, herror⟩ := hfails.mpr hnone
  obtain ⟨rfl, -, hlater⟩ := hsame error herror
  obtain ⟨done, hok, -, route, -, -, ⟨-, -, -, hhandler⟩, hreplaced, -⟩ := hdone .post hpost
  have hsecond : router.toList[1]?.map Route.name = some "b" := by decide +kernel
  obtain ⟨old, hold, hname⟩ := Option.map_eq_some_iff.mp hsecond
  obtain ⟨hplace, htable⟩ := hreplaced 1 old hold hname
  have hhandlers : router.toList.map Route.handler = [1, 2, 3] := by decide +kernel
  refine ⟨hnone, herror, hlater [], hpost, done, hok, hplace, ?_⟩
  rw [htable, List.map_set, hhandlers, hhandler]
  rfl

end Router

end PathRouting
