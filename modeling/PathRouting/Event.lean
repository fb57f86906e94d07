import PathRouting.Method

/-!
# Events

What a router reports while it registers routes and serves requests. An event says what
happened; its level, its message and its fields are its wording in a log.

A computation that reports events is a value with the events that led to it, in order.
-/

namespace PathRouting

/-- Something that a router reports. -/
inductive Event where
  /-- A route was registered. -/
  | routeRegistered (method : Method) (name pattern : String) (segments : Nat)
  /-- The route just registered takes the place of an earlier one of its name. -/
  | routeNameReused (name : String)
  /-- The method of a request is none that a route serves. -/
  | unknownRequestMethod (error : RoutingError)
  /-- A route matches a request and captures some values. -/
  | routeMatched (name : String) (captures : Nat)
  /-- A route serves the method of a request, but does not match its path. -/
  | routeSkipped (name : String)
  /-- No route matches a request. -/
  | noRouteMatched (method : Method) (path : String)
  deriving DecidableEq, Repr

namespace Event

/-! ## Wording -/

/-- How much an event matters. -/
inductive Level where
  | trace
  | debug
  | warn
  deriving DecidableEq, Repr

/-- The name of a level. -/
def Level.name : Level → String
  | .trace => "TRACE"
  | .debug => "DEBUG"
  | .warn => "WARN"

/-- The value of a field. -/
inductive Field where
  | text (text : String)
  | count (count : Nat)
  deriving DecidableEq, Repr

/-- The level of an event. -/
def level : Event → Level
  | .routeRegistered .. => .debug
  | .routeNameReused .. => .warn
  | .unknownRequestMethod .. => .debug
  | .routeMatched .. => .trace
  | .routeSkipped .. => .trace
  | .noRouteMatched .. => .debug

/-- The message of an event. -/
def message : Event → String
  | .routeRegistered .. => "route registered"
  | .routeNameReused .. => "route name reused, replacing the earlier route"
  | .unknownRequestMethod .. => "unknown request method"
  | .routeMatched .. => "route matched"
  | .routeSkipped .. => "route skipped"
  | .noRouteMatched .. => "no route matched"

/-- The fields of an event, by name. -/
def fields : Event → List (String × Field)
  | .routeRegistered method name pattern segments =>
    [("method", .text method.name), ("name", .text name), ("pattern", .text pattern),
      ("segments", .count segments)]
  | .routeNameReused name => [("name", .text name)]
  | .unknownRequestMethod error => [("error", .text error.message)]
  | .routeMatched name captures => [("name", .text name), ("captures", .count captures)]
  | .routeSkipped name => [("name", .text name)]
  | .noRouteMatched method path => [("method", .text method.name), ("path", .text path)]

/-- A line of a log: a level, a message and fields. -/
structure Line where
  level : String
  message : String
  fields : List (String × Field)
  deriving DecidableEq, Repr

/-- The line of a log that an event leaves. -/
def line (event : Event) : Line :=
  ⟨event.level.name, event.message, event.fields⟩

end Event

/-! ## Computations that report events -/

/-- A value, with the events that were reported on the way to it. -/
structure Logged (α : Type u) where
  value : α
  events : List Event
  deriving DecidableEq, Repr

namespace Logged

instance : Monad Logged where
  pure a := ⟨a, []⟩
  bind x f := ⟨(f x.value).value, x.events ++ (f x.value).events⟩

/-- Reports an event. -/
def emit (event : Event) : Logged PUnit :=
  ⟨.unit, [event]⟩

@[simp] theorem value_pure {α : Type u} (a : α) : (pure a : Logged α).value = a := rfl

@[simp] theorem events_pure {α : Type u} (a : α) : (pure a : Logged α).events = [] := rfl

@[simp] theorem value_bind {α β : Type u} (x : Logged α) (f : α → Logged β) :
    (x >>= f).value = (f x.value).value := rfl

@[simp] theorem events_bind {α β : Type u} (x : Logged α) (f : α → Logged β) :
    (x >>= f).events = x.events ++ (f x.value).events := rfl

@[simp] theorem value_map {α β : Type u} (f : α → β) (x : Logged α) :
    (f <$> x).value = f x.value := rfl

@[simp] theorem events_map {α β : Type u} (f : α → β) (x : Logged α) :
    (f <$> x).events = x.events :=
  List.append_nil x.events

@[simp] theorem events_emit (event : Event) : (emit event).events = [event] := rfl

theorem value_foldlM {α : Type v} {β : Type u} (f : β → α → Logged β) (b : β) (as : List α) :
    (as.foldlM f b).value = as.foldl (fun b a => (f b a).value) b := by
  induction as generalizing b with
  | nil => rfl
  | cons a as ih => rw [List.foldlM_cons, value_bind, ih, List.foldl_cons]

/-- What a fold reports, if what each of its steps reports depends on the item only. -/
theorem events_foldlM {α : Type v} {β : Type u} {f : β → α → Logged β} {g : α → List Event}
    (h : ∀ b a, (f b a).events = g a) (b : β) (as : List α) :
    (as.foldlM f b).events = as.flatMap g := by
  induction as generalizing b with
  | nil => rfl
  | cons a as ih => rw [List.foldlM_cons, events_bind, h, ih, List.flatMap_cons]

instance : LawfulMonad Logged := LawfulMonad.mk' _
  (fun x => by simp [Functor.map])
  (fun a f => by simp [bind, pure])
  (fun x f g => by simp [bind])

end Logged

end PathRouting
