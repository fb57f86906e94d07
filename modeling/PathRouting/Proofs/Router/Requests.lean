import PathRouting.Proofs.Router.Agreement

/-!
# HTTP requests

An HTTP request names its method by a token. It is answered like the request with the same text, but
an unknown method is not reported (`Router.answers_by_method_name`).
-/

namespace PathRouting

variable {H : Type}

namespace Router

variable {router : Router H} {path : String} {request : HttpMethod} {method : Method}
  {error : RoutingError}

theorem findHttp?_of_ofName_ok (h : Method.ofName request.text = .ok method) :
    router.findHttp? request path = router.findServing? method path := by
  rw [findHttp?, HttpMethod.toMethod, h]
  rfl

theorem executeHttp_of_ofName_ok (h : Method.ofName request.text = .ok method) :
    router.executeHttp request path = router.executeServing method path := by
  rw [executeHttp, HttpMethod.toMethod, h]

theorem findHttp?_of_ofName_error (h : Method.ofName request.text = .error error) :
    router.findHttp? request path = none := by
  rw [findHttp?, HttpMethod.toMethod, h]
  rfl

theorem executeHttp_of_ofName_error (h : Method.ofName request.text = .error error) :
    router.executeHttp request path = pure .empty := by
  rw [executeHttp, HttpMethod.toMethod, h]

/-- **A request is answered as one of the method that it names**, in whatever case the name is
written, and finds and calls nothing if it names none. An HTTP request is answered like the request
with its text, except that an unknown method is not reported. -/
theorem answers_by_method_name (router : Router H) (path : String) :
    (∀ (name : String) (method : Method), method.IsNamedBy name →
      (∀ other : Method, other.IsNamedBy name → other = method) ∧
      router.find? name path = router.find? method.name path ∧
      router.findAll name path = router.findAll method.name path ∧
      router.execute name path = router.execute method.name path ∧
      ∃ items, router.Answers name path items ∧
        items.map RouteMatch.route = (router.toList.filter fun route =>
          (route.method = method ∨ route.method = .any) ∧ (route.pattern.find? path).isSome) ∧
        ∀ item ∈ items, item.route.pattern.find? path = some item.captures) ∧
    (∀ name : String, (∀ method : Method, ¬ method.IsNamedBy name) →
      router.Answers name path []) ∧
    ∀ request : HttpMethod,
      router.findHttp? request path = (router.find? request.text path).value ∧
      (router.executeHttp request path).value = (router.execute request.text path).value ∧
      (∀ method : Method, method.IsNamedBy request.text →
        (router.find? request.text path).events = [] ∧
        (router.execute request.text path).events = (router.executeHttp request path).events) ∧
      ((∀ method : Method, ¬ method.IsNamedBy request.text) →
        let reported := [Event.unknownRequestMethod (.invalidMethod request.text)]
        (router.find? request.text path).events = reported ∧
        (router.execute request.text path).events = reported ∧
        (router.executeHttp request path).events = []) := by
  refine ⟨fun name method hname => ?_, fun name hnone => ?_, fun request => ?_⟩
  · have hok := Method.ofName_eq_ok_iff.mpr hname
    have hself := Method.ofName_eq_ok_iff.mpr method.isNamedBy_name
    refine ⟨fun other hother => hname.unique hother, ?_, ?_, ?_, _, answers_of_ofName_ok hok,
      map_route_matchesServing router method path,
      fun item => find?_of_mem_matchesServing⟩
    · rw [find?_of_ofName_ok hok, find?_of_ofName_ok hself]
    · rw [findAll_of_ofName_ok hok, findAll_of_ofName_ok hself]
    · rw [execute_of_ofName_ok hok, execute_of_ofName_ok hself]
  · rcases Method.ofName_cases name with ⟨method, hname, -⟩ | ⟨-, herror⟩
    · exact absurd hname (hnone method)
    · exact answers_of_ofName_error herror
  · rcases Method.ofName_cases request.text with ⟨method, hname, hok⟩ | ⟨hnone, herror⟩
    · rw [findHttp?_of_ofName_ok hok, executeHttp_of_ofName_ok hok, find?_of_ofName_ok hok,
        execute_of_ofName_ok hok]
      exact ⟨rfl, rfl, fun _ _ => ⟨rfl, rfl⟩, fun hnone => absurd hname (hnone method)⟩
    · rw [findHttp?_of_ofName_error herror, executeHttp_of_ofName_error herror,
        find?_of_ofName_error herror, execute_of_ofName_error herror]
      exact ⟨rfl, rfl, fun method hname => absurd hname (hnone method), fun _ => ⟨rfl, rfl, rfl⟩⟩

end Router

end PathRouting
