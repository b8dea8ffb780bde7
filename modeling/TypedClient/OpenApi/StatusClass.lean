/-!
The classes of HTTP status codes.
-/

set_option autoImplicit false

namespace TypedClient.OpenApi

inductive StatusClass where
  | informational
  | success
  | redirection
  | clientError
  | serverError
  deriving DecidableEq, Repr

namespace StatusClass

def all : List StatusClass := [informational, success, redirection, clientError, serverError]

def digit : StatusClass → Nat
  | informational => 1
  | success => 2
  | redirection => 3
  | clientError => 4
  | serverError => 5

def label (status : StatusClass) : String := toString status.digit ++ "xx"

def typeName (status : StatusClass) : String := "StatusCode" ++ status.label

def codes : StatusClass → List Nat
  | informational => [100, 101, 102, 103]
  | success => [200, 201, 202, 203, 204, 205, 206, 207, 208, 226]
  | redirection => [300, 301, 302, 303, 304, 305, 307, 308]
  | clientError =>
    [400, 401, 402, 403, 404, 405, 406, 407, 408, 409, 410, 411, 412, 413, 414, 415, 416, 417, 418,
     421, 422, 423, 424, 425, 426, 428, 429, 431, 451]
  | serverError => [500, 501, 502, 503, 504, 505, 506, 507, 508, 510, 511]

def ofDigit? : Char → Option StatusClass
  | '1' => some informational
  | '2' => some success
  | '3' => some redirection
  | '4' => some clientError
  | '5' => some serverError
  | _ => none

def isX (c : Char) : Bool := c == 'x' || c == 'X'

/-- The class of a response key: a code such as `404`, or a range such as `4XX`. -/
def ofKey? (key : String) : Option StatusClass :=
  match key.toList with
  | [first, second, third] =>
    if (second.isDigit && third.isDigit) || (isX second && isX third) then ofDigit? first else none
  | _ => none

end StatusClass

end TypedClient.OpenApi
