import PathRouting.Error

/-!
# Methods

The method of a route is one of those of HTTP, or `any`, which serves every request. A method is
named by its name in either case. The method of an HTTP request is a token, which may or may not
name a method here.
-/

namespace PathRouting

/-- The method that a route serves. -/
inductive Method where
  | get
  | head
  | post
  | put
  | patch
  | delete
  | options
  | any
  deriving DecidableEq, Repr

namespace Method

/-- All methods. -/
def all : List Method :=
  [.get, .head, .post, .put, .patch, .delete, .options, .any]

/-- The name of a method, in lower case. -/
def name : Method → String
  | .get => "get"
  | .head => "head"
  | .post => "post"
  | .put => "put"
  | .patch => "patch"
  | .delete => "delete"
  | .options => "options"
  | .any => "any"

/-- The characters of a name, its ASCII letters in lower case. -/
def foldCase (name : String) : List Char :=
  name.toList.map Char.toLower

/-- The method with a name. The case of ASCII letters does not count. -/
def ofName (name : String) : Except RoutingError Method :=
  match all.find? fun method => foldCase method.name = foldCase name with
  | some method => .ok method
  | none => .error (.invalidMethod name)

/-- Whether a route of method `registered` serves a request of method `request`. -/
def serves (registered request : Method) : Bool :=
  registered == .any || registered == request

end Method

/-! ## The methods of HTTP requests -/

/-- A character of the method of an HTTP request. -/
def isHttpTokenChar (c : Char) : Bool :=
  c.isAlphanum || "!*+-.^_`|~".toList.contains c

/-- The method of an HTTP request: a token that is not empty. -/
structure HttpMethod where
  text : String
  text_ne_empty : text ≠ ""
  isToken : text.toList.all isHttpTokenChar = true

namespace HttpMethod

/-- The method of an HTTP request that a text is, if it is a token. -/
def ofString? (text : String) : Option HttpMethod :=
  if h : text ≠ "" ∧ text.toList.all isHttpTokenChar = true then some ⟨text, h.1, h.2⟩ else none

/-- The method that the method of a request names. -/
def toMethod (request : HttpMethod) : Except RoutingError Method :=
  Method.ofName request.text

end HttpMethod

end PathRouting
