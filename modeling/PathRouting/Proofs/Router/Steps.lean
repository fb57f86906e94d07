import PathRouting.Router.Registration

/-!
# The steps of a router

A router is built by a run of steps, each of which calls one of its functions. Whatever the
function is, the step either keeps the table or starts an empty one, and then inserts the routes of
some registrations (`Step.run_eq`). The history of a run is the list of the registrations since the
last empty table.

What holds of an empty router and is preserved by an insertion therefore holds after every run,
together with its history (`Router.run_induction`).
-/

namespace PathRouting

variable {H : Type}

/-- What a route is registered for, and its name. -/
structure Entry (H : Type) where
  method : Method
  pattern : String
  name : String
  handler : H

/-- The route of a registration. -/
def Entry.route (entry : Entry H) : Route H where
  method := entry.method
  name := entry.name
  pattern := .compile entry.pattern
  handler := entry.handler

/-- A step of a router: a new router, or a call of a function that changes it. -/
inductive Step (H : Type) : Type 1 where
  | new
  | clear
  | register (method : Method) (pattern : String) (handler : H)
  | registerNamed (method : Method) (pattern name : String) (handler : H)
  /-- A registration for the method with a given name, which fails if there is none. -/
  | tryRegister (method pattern : String) (name? : Option String) (handler : H)
  | route {K : Type} (box : K → H) (method : Method) (pattern : String) (handler : K)
  | routeNamed {K : Type} (box : K → H) (method : Method) (pattern name : String) (handler : K)
  /-- A call of the function that registers routes for one method. -/
  | verb (method : Method) (pattern : String) (handler : H)
  /-- A new router of a whole list of routes. -/
  | ofList (routes : List (Method × String × H))

namespace Router

/-- The function that registers routes for a method. -/
def verb (router : Router H) : Method → String → H → Logged (Router H)
  | .get => router.get
  | .head => router.head
  | .post => router.post
  | .put => router.put
  | .patch => router.patch
  | .delete => router.delete
  | .options => router.options
  | .any => router.any

theorem verb_eq_register (router : Router H) (method : Method) :
    router.verb method = router.register method := by
  cases method <;> rfl

/-- Inserts the route of a registration. -/
def insertEntry (router : Router H) (entry : Entry H) : Logged (Router H) :=
  Registration.router <$> router.insert entry.route

end Router

namespace Step

/-- What a step does to a router. -/
def run (router : Router H) : Step H → Logged (Router H)
  | .new => return .empty
  | .clear => return router.clear
  | .register method pattern handler => router.register method pattern handler
  | .registerNamed method pattern name handler => router.registerNamed method pattern name handler
  | .tryRegister method pattern name? handler =>
    match router.tryRegister method pattern name? handler with
    | .ok registration => Registration.router <$> registration
    | .error _ => return router
  | .route box method pattern handler => router.route box method pattern handler
  | .routeNamed box method pattern name handler =>
    router.routeNamed box method pattern name handler
  | .verb method pattern handler => router.verb method pattern handler
  | .ofList routes => Router.ofList routes

/-! ## What every step does -/

/-- Whether a step leaves the routes behind that were there before it. -/
def startsAfresh : Step H → Bool
  | .new | .clear | .ofList _ => true
  | _ => false

/-- The registrations of a step that succeed. A route without a name goes by the text of its
pattern. -/
def entries : Step H → List (Entry H)
  | .new | .clear => []
  | .register method pattern handler => [⟨method, pattern, pattern, handler⟩]
  | .registerNamed method pattern name handler => [⟨method, pattern, name, handler⟩]
  | .tryRegister method pattern name? handler =>
    match Method.ofName method with
    | .ok method => [⟨method, pattern, name?.getD pattern, handler⟩]
    | .error _ => []
  | .route box method pattern handler => [⟨method, pattern, pattern, box handler⟩]
  | .routeNamed box method pattern name handler => [⟨method, pattern, name, box handler⟩]
  | .verb method pattern handler => [⟨method, pattern, pattern, handler⟩]
  | .ofList routes => routes.map fun (method, pattern, handler) =>
      ⟨method, pattern, pattern, handler⟩

/-- **A step inserts its registrations one by one**, into the table that is there or into an empty
one. -/
theorem run_eq (router : Router H) (step : Step H) :
    step.run router =
      step.entries.foldlM Router.insertEntry (if step.startsAfresh then .empty else router) := by
  have hone (entry : Entry H) :
      router.insertEntry entry = [entry].foldlM Router.insertEntry router := by
    rw [List.foldlM_cons]
    exact (bind_pure _).symm
  cases step with
  | new => rfl
  | clear => rfl
  | register method pattern handler => exact hone ⟨method, pattern, pattern, handler⟩
  | registerNamed method pattern name handler => exact hone ⟨method, pattern, name, handler⟩
  | tryRegister method pattern name? handler =>
    cases hmethod : Method.ofName method with
    | ok served =>
      simp only [run, entries, Router.tryRegister, hmethod]
      exact hone ⟨served, pattern, name?.getD pattern, handler⟩
    | error error =>
      simp only [run, entries, Router.tryRegister, hmethod]
      rfl
  | route box method pattern handler => exact hone ⟨method, pattern, pattern, box handler⟩
  | routeNamed box method pattern name handler => exact hone ⟨method, pattern, name, box handler⟩
  | verb method pattern handler =>
    rw [run, Router.verb_eq_register]
    exact hone ⟨method, pattern, pattern, handler⟩
  | ofList routes =>
    rw [entries, List.foldlM_map]
    rfl

/-! ## Histories -/

/-- The registrations since the last empty table, after one more step. -/
def extend (history : List (Entry H)) (step : Step H) : List (Entry H) :=
  (if step.startsAfresh then [] else history) ++ step.entries

/-- The registrations of a run since the last empty table, in order. -/
def history (steps : List (Step H)) : List (Entry H) :=
  steps.foldl extend []

end Step

namespace Router

/-- A run of steps from an empty router. -/
def run (steps : List (Step H)) : Logged (Router H) :=
  steps.foldlM Step.run .empty

section Induction

variable {P : List (Entry H) → Router H → Prop}
  (hinsert : ∀ history router entry, P history router →
    P (history ++ [entry]) (router.insertEntry entry).value)

include hinsert

theorem foldlM_insertEntry_induction {history : List (Entry H)} {router : Router H}
    (h : P history router) (entries : List (Entry H)) :
    P (history ++ entries) (entries.foldlM insertEntry router).value := by
  induction entries generalizing history router with
  | nil => simpa using h
  | cons entry entries ih =>
    rw [List.foldlM_cons, Logged.value_bind, ← List.singleton_append, ← List.append_assoc]
    exact ih (hinsert history router entry h)

theorem step_induction (hempty : P [] .empty) {history : List (Entry H)} {router : Router H}
    (h : P history router) (step : Step H) :
    P (step.extend history) (step.run router).value := by
  rw [Step.run_eq, Step.extend]
  apply foldlM_insertEntry_induction hinsert
  split
  · exact hempty
  · exact h

/-- What an empty router has and an insertion preserves holds after every run. -/
theorem run_induction (hempty : P [] .empty) (steps : List (Step H)) :
    P (Step.history steps) (run steps).value := by
  have hrun : ∀ (steps : List (Step H)) history router, P history router →
      P (steps.foldl Step.extend history) (steps.foldlM Step.run router).value := by
    intro steps
    induction steps with
    | nil => exact fun _ _ h => h
    | cons step steps ih =>
      intro history router h
      rw [List.foldlM_cons, Logged.value_bind, List.foldl_cons]
      exact ih _ _ (step_induction hinsert hempty h step)
  exact hrun steps [] .empty hempty

end Induction

end Router

end PathRouting
