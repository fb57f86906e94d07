import PathRouting.Error
import PathRouting.Proofs.Text.Quoting

/-!
# Messages identify errors

The message of an error quotes what the error carries. Its first character tells which error it is
(`RoutingError.head?_toList_message`), and the quoted texts in it end where their closing quotes
say, so that no text, however it looks, makes the message of one error that of another
(`RoutingError.message_eq_message_iff`).
-/

namespace PathRouting

namespace RoutingError

theorem message_invalidMethod (name : String) :
    (invalidMethod name).message = Text.quote name ++ " is not a valid method name" := rfl

theorem message_routeNotFound (name : String) :
    (routeNotFound name).message = "no route is named " ++ Text.quote name := rfl

theorem message_unresolvedPlaceholder (pattern name : String) :
    (unresolvedPlaceholder pattern name).message =
      "placeholder " ++
        (Text.quote name ++ (" is unresolved: pattern = " ++ Text.quote pattern)) := by
  rw [← String.append_assoc, ← String.append_assoc]
  rfl

/-- The first character of an error's message: the quote of a name, or a letter. -/
def initial : RoutingError → Char
  | invalidMethod _ => '"'
  | routeNotFound _ => 'n'
  | unresolvedPlaceholder _ _ => 'p'

theorem head?_toList_message (error : RoutingError) :
    error.message.toList.head? = some error.initial := by
  cases error with
  | invalidMethod name =>
    rw [message_invalidMethod, String.toList_append, Text.quote, String.toList_ofList]
    rfl
  | routeNotFound name =>
    rw [message_routeNotFound, String.toList_append, List.head?_append]
    rfl
  | unresolvedPlaceholder pattern name =>
    rw [message_unresolvedPlaceholder, String.toList_append, List.head?_append]
    rfl

/-- Errors with the same message are of the same kind. -/
theorem initial_eq_of_message_eq {error other : RoutingError} (h : error.message = other.message) :
    error.initial = other.initial := by
  have hhead := head?_toList_message error
  rw [h, head?_toList_message] at hhead
  exact (Option.some.inj hhead).symm

/-- **Errors with the same message are the same**: they are of the same kind, and carry the same
texts. -/
theorem message_eq_message_iff (error other : RoutingError) :
    error.message = other.message ↔ error = other := by
  refine ⟨fun h => ?_, congrArg message⟩
  have hinitial := initial_eq_of_message_eq h
  cases error with
  | invalidMethod name =>
    cases other with
    | invalidMethod name' =>
      rw [message_invalidMethod, message_invalidMethod] at h
      rw [(Text.quote_append_inj h).1]
    | _ => cases hinitial
  | routeNotFound name =>
    cases other with
    | routeNotFound name' =>
      rw [message_routeNotFound, message_routeNotFound, String.append_right_inj] at h
      rw [Text.quote_inj h]
    | _ => cases hinitial
  | unresolvedPlaceholder pattern name =>
    cases other with
    | unresolvedPlaceholder pattern' name' =>
      rw [message_unresolvedPlaceholder, message_unresolvedPlaceholder,
        String.append_right_inj] at h
      obtain ⟨hname, hpattern⟩ := Text.quote_append_inj h
      rw [hname, Text.quote_inj ((String.append_right_inj _).mp hpattern)]
    | _ => cases hinitial

/-- A name that imitates the rest of its own message stays inside its quotes. -/
example : (unresolvedPlaceholder "b" "a\" is unresolved: pattern = \"b").message =
    "placeholder \"a\\\" is unresolved: pattern = \\\"b\" is unresolved: pattern = \"b\"" := by
  decide +kernel

end RoutingError

end PathRouting
