import PathRouting.Proofs.Router.History
import PathRouting.Proofs.Router.RequestLog
import PathRouting.Proofs.Router.Requests

/-!
# What registrations report

A registration is reported, and then, if an earlier one used its name, that the name is used again
(`Router.Holds.log_foldlM_insertEntry`). A name is used again exactly if its route takes the place
of another one, so that the table does not grow. Since the table was last empty there are therefore
as many registrations as routes and warnings together (`Router.balanced_recent`).

Requests may come between the steps of a router. They change nothing and report neither a
registration nor a warning (`Action.ofRequest_of_mem_run`).
-/

namespace PathRouting

variable {H : Type}

/-! ## Lines of registrations -/

namespace Entry

/-- The lines of a registration after earlier ones. -/
def lines (earlier : List (Entry H)) (entry : Entry H) : List Event.Line :=
  ⟨"DEBUG", "route registered",
    [("method", .text entry.route.method.name), ("name", .text entry.route.name),
      ("pattern", .text entry.route.pattern.source),
      ("segments", .count entry.route.pattern.segments.length)]⟩ ::
    if ∃ other ∈ earlier, other.route.name = entry.route.name then
      [⟨"WARN", "route name reused, replacing the earlier route",
        [("name", .text entry.route.name)]⟩]
    else
      []

/-- The lines of some registrations, one after another, after earlier ones. -/
def log (earlier : List (Entry H)) : List (Entry H) → List Event.Line
  | [] => []
  | entry :: entries => entry.lines earlier ++ log (earlier ++ [entry]) entries

end Entry

namespace Router

variable {router : Router H} {earlier : List (Entry H)}

/-- A name has a place exactly if a registration used it. -/
theorem Holds.names_eq_none_iff (h : router.Holds earlier) (name : String) :
    router.names[name]? = none ↔ ¬ ∃ other ∈ earlier, other.route.name = name := by
  rw [h.consistent.names_eq_none_iff, h.toList_eq, Entry.map_name_table, Entry.names,
    List.mem_eraseDups, List.mem_map]
  rfl

/-- **A registration is reported, and a warning follows exactly if its name was used.** -/
theorem Holds.log_insertEntry (h : router.Holds earlier) (entry : Entry H) :
    (router.insertEntry entry).events.map Event.line = entry.lines earlier := by
  have hnone := h.names_eq_none_iff entry.route.name
  rw [insertEntry, Logged.events_map, insert, Entry.lines]
  cases hname : router.names[entry.route.name]? with
  | none =>
    rw [if_neg (hnone.mp hname)]
    rfl
  | some place =>
    rw [if_pos (not_not.mp (mt hnone.mpr (by simp [hname])))]
    rfl

theorem Holds.log_foldlM_insertEntry (h : router.Holds earlier) (entries : List (Entry H)) :
    (entries.foldlM insertEntry router).events.map Event.line = Entry.log earlier entries := by
  induction entries generalizing router earlier with
  | nil => rfl
  | cons entry entries ih =>
    rw [List.foldlM_cons, Logged.events_bind, List.map_append, h.log_insertEntry,
      ih (h.concat entry), Entry.log]

end Router

theorem Step.log_run {router : Router H} {history : List (Entry H)} (h : router.Holds history)
    (step : Step H) :
    (step.run router).events.map Event.line =
      Entry.log (if step.startsAfresh then [] else history) step.entries := by
  rw [run_eq]
  split
  · exact Router.holds_empty.log_foldlM_insertEntry _
  · exact h.log_foldlM_insertEntry _

/-! ## Sessions -/

/-- A call of a function of a router that may report something: a step, or a request, which leaves
the router as it is. -/
inductive Action (H : Type) : Type 1 where
  | change (step : Step H)
  | find (method path : String)
  | findAll (method path : String)
  | execute (method path : String)
  | executeHttp (method : HttpMethod) (path : String)

namespace Action

/-- What a call does to a router. -/
def run (router : Router H) : Action H → Logged (Router H)
  | .change step => step.run router
  | .find method path => (fun _ => router) <$> router.find? method path
  | .findAll method path => (fun _ => router) <$> router.findAll method path
  | .execute method path => (fun _ => router) <$> router.execute method path
  | .executeHttp method path => (fun _ => router) <$> router.executeHttp method path

/-- The step that a call is, if it is one. -/
def step? : Action H → Option (Step H)
  | .change step => some step
  | _ => none

/-- Whether a call leaves the routes behind that were there before it. -/
def startsAfresh (action : Action H) : Bool :=
  action.step?.any Step.startsAfresh

/-- One more call, after which the reports from before the last empty table are forgotten. -/
def follow (done : Logged (Router H)) (action : Action H) : Logged (Router H) where
  value := (action.run done.value).value
  events := (if action.startsAfresh then [] else done.events) ++ (action.run done.value).events

theorem eq_change_of_step? {action : Action H} {step : Step H} (h : action.step? = some step) :
    action = .change step := by
  cases action with
  | change other => rw [Option.some.inj h]
  | _ => cases h

end Action

namespace Router

/-- A session of calls from an empty router. -/
def session (actions : List (Action H)) : Logged (Router H) :=
  actions.foldlM Action.run .empty

/-- The router after a session, with what was reported since its table was last empty. -/
def recent (actions : List (Action H)) : Logged (Router H) :=
  actions.foldl Action.follow (pure .empty)

variable (actions : List (Action H)) (action : Action H)

theorem session_concat :
    session (actions ++ [action]) = session actions >>= fun router => action.run router := by
  simp [session, List.foldlM_append]

theorem recent_concat : recent (actions ++ [action]) = Action.follow (recent actions) action := by
  rw [recent, List.foldl_concat]
  rfl

/-- What was reported since the table was last empty is the end of all reports. -/
theorem recent_session :
    (recent actions).value = (session actions).value ∧
      (recent actions).events <:+ (session actions).events := by
  induction actions using List.reverseRecOn with
  | nil => exact ⟨rfl, List.suffix_rfl⟩
  | append_singleton actions action ih =>
    obtain ⟨hvalue, hevents⟩ := ih
    rw [recent_concat, session_concat, Logged.value_bind, Logged.events_bind, Action.follow, hvalue]
    refine ⟨rfl, ?_⟩
    split
    · exact List.suffix_append _ _
    · obtain ⟨before, hbefore⟩ := hevents
      exact ⟨before, by rw [← hbefore, List.append_assoc]⟩

end Router

/-! ## Requests -/

/-- What a request may report: neither a registration nor a warning. -/
def Event.OfRequest (event : Event) : Prop :=
  event.message ≠ "route registered" ∧ event.level ≠ .warn

theorem Event.ofRequest_iff {event : Event} :
    event.OfRequest ↔
      (∀ method name pattern segments, event ≠ .routeRegistered method name pattern segments) ∧
        ∀ name, event ≠ .routeNameReused name := by
  cases event <;> simp [OfRequest, message, level]

theorem Route.ofRequest_report (path : String) (route : Route H) :
    (route.report path).OfRequest := by
  rw [report]
  split <;> simp [Event.ofRequest_iff]

theorem Router.ofRequest_of_mem_executeServing {router : Router H} {method : Method}
    {path : String} {event : Event} (h : event ∈ (router.executeServing method path).events) :
    event.OfRequest := by
  rw [events_executeServing, List.mem_append] at h
  rcases h with h | h
  · obtain ⟨route, -, rfl⟩ := List.mem_map.mp h
    exact route.ofRequest_report path
  · split at h
    · rw [List.mem_singleton.mp h]
      simp [Event.ofRequest_iff]
    · cases h

namespace Action

variable {action : Action H}

/-- A request leaves the router as it is. -/
theorem value_run (h : action.step? = none) (router : Router H) :
    (action.run router).value = router := by
  cases action with
  | change step => cases h
  | _ => rfl

theorem ofRequest_of_mem_run (h : action.step? = none) (router : Router H) :
    ∀ event ∈ (action.run router).events, event.OfRequest := by
  have hunknown (error : RoutingError) : (Event.unknownRequestMethod error).OfRequest := by
    simp [Event.ofRequest_iff]
  cases action with
  | change step => cases h
  | find name path =>
    rw [run, Logged.events_map]
    cases hname : Method.ofName name with
    | ok method => simp [Router.find?_of_ofName_ok hname]
    | error error => simp [Router.find?_of_ofName_error hname, hunknown]
  | findAll name path =>
    rw [run, Logged.events_map]
    cases hname : Method.ofName name with
    | ok method => simp [Router.findAll_of_ofName_ok hname]
    | error error => simp [Router.findAll_of_ofName_error hname, hunknown]
  | execute name path =>
    rw [run, Logged.events_map]
    cases hname : Method.ofName name with
    | ok method =>
      rw [Router.execute_of_ofName_ok hname]
      exact fun event => Router.ofRequest_of_mem_executeServing
    | error error => simp [Router.execute_of_ofName_error hname, hunknown]
  | executeHttp request path =>
    rw [run, Logged.events_map]
    cases hname : Method.ofName request.text with
    | ok method =>
      rw [Router.executeHttp_of_ofName_ok hname]
      exact fun event => Router.ofRequest_of_mem_executeServing
    | error error => simp [Router.executeHttp_of_ofName_error hname]

end Action

/-! ## Registrations and warnings -/

namespace Event

/-- The number of registrations among some reports. -/
def registrations (events : List Event) : Nat :=
  events.countP (·.message = "route registered")

/-- The number of warnings among some reports. -/
def warnings (events : List Event) : Nat :=
  events.countP (·.level = .warn)

variable (events others : List Event)

@[simp] theorem registrations_append :
    registrations (events ++ others) = registrations events + registrations others :=
  List.countP_append

@[simp] theorem warnings_append :
    warnings (events ++ others) = warnings events + warnings others :=
  List.countP_append

theorem counts_of_ofRequest (h : ∀ event ∈ events, event.OfRequest) :
    registrations events = 0 ∧ warnings events = 0 := by
  simp only [registrations, warnings, List.countP_eq_zero, decide_eq_true_eq]
  exact ⟨fun event hevent => (h event hevent).1, fun event hevent => (h event hevent).2⟩

end Event

namespace Router

/-- A router with reports is balanced if they hold as many registrations as there are routes and
warnings. -/
def Balanced (done : Logged (Router H)) : Prop :=
  Event.registrations done.events = done.value.size + Event.warnings done.events

/-- **The table grows by a registration, or a warning is reported.** -/
theorem registrations_insertEntry (router : Router H) (entry : Entry H) :
    let done := router.insertEntry entry
    Event.registrations done.events + router.size =
      done.value.size + Event.warnings done.events := by
  intro done
  cases hname : router.names[entry.route.name]? with
  | none =>
    have hsize : done.value.size = router.size + 1 := by
      simp [done, insertEntry, value_insert_of_none hname, size]
    have hevents : Event.registrations done.events = 1 ∧ Event.warnings done.events = 0 := by
      simp [done, insertEntry, insert, hname, Event.registrations, Event.warnings, Event.message,
        Event.level]
    omega
  | some place =>
    have hsize : done.value.size = router.size := by
      simp [done, insertEntry, value_insert_of_some hname, size]
    have hevents : Event.registrations done.events = 1 ∧ Event.warnings done.events = 1 := by
      simp [done, insertEntry, insert, hname, Event.registrations, Event.warnings, Event.message,
        Event.level]
    omega

theorem registrations_foldlM_insertEntry (router : Router H) (entries : List (Entry H)) :
    let done := entries.foldlM insertEntry router
    Event.registrations done.events + router.size =
      done.value.size + Event.warnings done.events := by
  induction entries generalizing router with
  | nil => simp [Event.registrations, Event.warnings]
  | cons entry entries ih =>
    have hfirst := registrations_insertEntry router entry
    have hrest := ih (router.insertEntry entry).value
    dsimp only at hfirst hrest ⊢
    rw [List.foldlM_cons, Logged.events_bind, Logged.value_bind, Event.registrations_append,
      Event.warnings_append]
    omega

theorem Balanced.follow {done : Logged (Router H)} (h : Balanced done) (action : Action H) :
    Balanced (action.follow done) := by
  rw [Balanced] at h
  rw [Balanced, Action.follow, Event.registrations_append, Event.warnings_append]
  cases haction : action.step? with
  | none =>
    -- a request: nothing is added on either side
    have hvalue := Action.value_run haction done.value
    obtain ⟨hregistrations, hwarnings⟩ :=
      Event.counts_of_ofRequest _ (Action.ofRequest_of_mem_run haction done.value)
    have hstays : action.startsAfresh = false := by rw [Action.startsAfresh, haction]; rfl
    simpa [hvalue, hregistrations, hwarnings, hstays] using h
  | some step =>
    -- a step: its registrations count from the table they are inserted into
    obtain rfl := Action.eq_change_of_step? haction
    have hafresh : (Action.change step).startsAfresh = step.startsAfresh := rfl
    have hcount := registrations_foldlM_insertEntry
      (if step.startsAfresh then .empty else done.value) step.entries
    rw [← Step.run_eq] at hcount
    rw [hafresh, Action.run]
    cases hstep : step.startsAfresh with
    | true =>
      have hempty : (empty : Router H).size = 0 := rfl
      simpa [hstep, hempty, Event.registrations, Event.warnings] using hcount
    | false =>
      simp only [hstep, Bool.false_eq_true, if_false] at hcount ⊢
      omega

/-- Since the table was last empty there are as many registrations as routes and warnings. -/
theorem balanced_recent (actions : List (Action H)) : Balanced (recent actions) := by
  induction actions using List.reverseRecOn with
  | nil => rfl
  | append_singleton actions action ih =>
    rw [recent_concat]
    exact ih.follow action

/-! ## The log of a session -/

/-- The registrations of a session since the table was last empty. -/
def history (actions : List (Action H)) : List (Entry H) :=
  Step.history (actions.filterMap Action.step?)

theorem Holds.step {router : Router H} {entries : List (Entry H)} (h : router.Holds entries)
    (step : Step H) : (step.run router).value.Holds (step.extend entries) :=
  step_induction (P := fun entries router => router.Holds entries)
    (fun _ _ entry h => h.concat entry) holds_empty h step

theorem holds_session (actions : List (Action H)) :
    (session actions).value.Holds (history actions) := by
  induction actions using List.reverseRecOn with
  | nil => exact holds_empty
  | append_singleton actions action ih =>
    rw [session_concat, Logged.value_bind, history, List.filterMap_append]
    cases haction : action.step? with
    | none =>
      rw [Action.value_run haction, List.filterMap_cons_none haction]
      simpa [history] using ih
    | some step =>
      obtain rfl := Action.eq_change_of_step? haction
      rw [List.filterMap_cons_some haction, Step.history, List.filterMap_nil, List.foldl_concat]
      exact ih.step step

/-- **The log of a session tells how its table grew.** Each registration leaves a line with its
route, and a warning with its name exactly if an earlier one since the table was last empty used the
name; one for an unknown method leaves no line and changes nothing. So the lines of registrations
since the table was last empty are as many as the routes and the warnings since then. -/
theorem log_of_session (actions : List (Action H)) :
    let done := session actions
    let recent := recent actions
    (∀ step : Step H,
      (session (actions ++ [.change step])).events.map Event.line = done.events.map Event.line ++
        Entry.log (if step.startsAfresh then [] else history actions) step.entries) ∧
    (∀ (method pattern : String) (name? : Option String) (handler : H),
      (∀ known : Method, ¬ known.IsNamedBy method) →
      session (actions ++ [.change (.tryRegister method pattern name? handler)]) = done) ∧
    (recent.value = done.value ∧ recent.events <:+ done.events) ∧
    Event.registrations recent.events = done.value.size + Event.warnings recent.events := by
  refine ⟨fun step => ?_, fun method pattern name? handler hnone => ?_, recent_session actions, ?_⟩
  · rw [session_concat, Logged.events_bind, List.map_append, Action.run,
      Step.log_run (holds_session actions)]
  · have herror := Method.ofName_eq_error_iff.mpr hnone
    simp only [session_concat, Action.run, Step.run, tryRegister, herror, Except.map, bind_pure]
  · rw [← (recent_session actions).1]
    exact balanced_recent actions

/-- Only the third registration uses a name again, since the table was cleared behind the first one.
The request in between counts for nothing. -/
theorem log_of_session_of_reused_name :
    let actions : List (Action Nat) := [.change (.register .get "/b/{x}" 1), .change .clear,
      .change (.register .get "/b/{x}" 2), .execute "get" "/b/1",
      .change (.registerNamed .put "/a" "/b/{x}" 3)]
    (session actions).events.map (·.message) = ["route registered", "route registered",
      "route matched", "route registered", "route name reused, replacing the earlier route"] ∧
    Event.registrations (recent actions).events = 2 ∧
    (∀ known : Method, ¬ known.IsNamedBy "trace") ∧
    session (actions ++ [.change (.tryRegister "trace" "/a" none 4)]) = session actions := by
  intro actions
  have htrace : ∀ method : Method, ¬ method.IsNamedBy "trace" :=
    Method.ofName_eq_error_iff.mp (by decide +kernel)
  obtain ⟨-, hunknown, -, hcount⟩ := log_of_session actions
  exact ⟨by decide +kernel, hcount.trans (by decide +kernel), htrace,
    hunknown "trace" "/a" none 4 htrace⟩

end Router

end PathRouting
