import TypedClient.Proofs.OpenApi.ExportedItems
import TypedClient.Proofs.Script.Items

/-! What the items of two files say about the members of a client.

Its methods are read off an interface of the declaration file; its exported constants, its functions
and the object that a function returns off the module. All readers look at tokens.
-/

set_option autoImplicit false

namespace TypedClient

open Script

structure Callable where
  name : String
  optional : Bool
  deriving DecidableEq, Repr

structure Wrapper where
  name : String
  calls : List String
  deriving DecidableEq, Repr

namespace Script

def optionalAt : List Token → Bool
  | .mark '?' :: _ => true
  | _ => false

def argumentOptional (argument : String) : List Token → Bool
  | [] => false
  | .word name :: rest =>
    if name = argument then optionalAt rest else argumentOptional argument rest
  | _ :: rest => argumentOptional argument rest

def methodOf : List Token → Option Callable
  | .word name :: .mark '(' :: .word _ :: rest => some ⟨name, optionalAt rest⟩
  | _ => none

/-- The header of a function, whose last argument is called `request` if it has one of that name. -/
def functionOf : List Token → Option Callable
  | .word "function" :: .word name :: rest => some ⟨name, argumentOptional "request" rest⟩
  | .word _ :: rest => functionOf rest
  | _ => none

def calls : List Token → List String
  | [] => []
  | .mark '.' :: .word _ :: rest => calls rest
  | .word name :: .mark '(' :: rest => name :: calls rest
  | _ :: rest => calls rest

def memberName? : List Token → Option String
  | [.word name] => some name
  | [.word name, .mark ','] => some name
  | .word name :: .mark ':' :: _ => some name
  | _ => none

/-- The name that a statement declares, with the words before it left out. -/
def declaredName? : List Token → Option String
  | .word "export" :: rest => declaredName? rest
  | .word "default" :: rest => declaredName? rest
  | .word "async" :: rest => declaredName? rest
  | .word "import" :: .word "type" :: .mark '*' :: .word "as" :: .word name :: _ => some name
  | .word "let" :: .word name :: _ => some name
  | .word "const" :: .word name :: _ => some name
  | .word "function" :: .word name :: _ => some name
  | _ => none

end Script

namespace Item

def method? : Item → Option Callable
  | .line text => (Script.tokens? text).bind methodOf
  | _ => none

def function? : Item → Option Callable
  | .block header _ _ => (Script.tokens? header).bind functionOf
  | _ => none

def wrapper? : Item → Option Wrapper
  | .block header body _ => match Script.tokens? header with
    | some (.word "export" :: .word "const" :: .word name :: _) =>
      (Item.tokensOf? body).map fun inside => ⟨name, calls inside⟩
    | _ => none
  | _ => none

def member? : Item → Option String
  | .line text => (Script.tokens? text).bind memberName?
  | _ => none

def returned? : Item → Option (List String)
  | .block header body _ =>
    if Script.tokens? header = some [.word "return"] then body.mapM member? else none
  | _ => none

def declaredName? : Item → Option String
  | .line text => (Script.tokens? text).bind Script.declaredName?
  | .block header _ _ => (Script.tokens? header).bind Script.declaredName?
  | .blank => none

def body : Item → List Item
  | .block _ body _ => body
  | _ => []

end Item

/-- The methods of the last interface of that name. -/
def interfaceMethods? (name : String) (items : List Item) : Option (List Callable) := do
  let item ← items.reverse.find? (·.exportedType? = some name)
  item.body.mapM Item.method?

def functions (items : List Item) : List Callable := items.filterMap Item.function?

def wrappers (items : List Item) : List Wrapper := items.filterMap Item.wrapper?

def moduleNames (items : List Item) : List String := items.filterMap Item.declaredName?

def returnedMembers? (function : String) (items : List Item) : Option (List String) := do
  let item ← items.find? (·.function?.any (·.name = function))
  item.body.findSome? Item.returned?

theorem interfaceMethods?_append {item : Item} {name : String} {tail : List Item}
    (exported : item.exportedType? = some name) (none : exportedTypes tail = [])
    (front : List Item) :
    interfaceMethods? name (front ++ item :: tail) = item.body.mapM Item.method? := by
  have others : tail.reverse.find? (·.exportedType? = some name) = .none := by
    rw [List.find?_eq_none]
    intro other member
    have silent := List.filterMap_eq_nil_iff.mp none other (List.mem_reverse.mp member)
    simp [silent]
  unfold interfaceMethods?
  rw [List.reverse_append, List.reverse_cons, List.append_assoc, List.find?_append, others]
  simp [exported]

/-- Where no other type has the name, the last interface of it is the only one. -/
theorem interfaceMethods?_sole {name : String} {items : List Item} {methods : List Callable}
    (read : interfaceMethods? name items = some methods)
    (once : (exportedTypes items).count name = 1) :
    ∀ item ∈ items, item.exportedType? = some name → item.body.mapM Item.method? = some methods := by
  obtain ⟨last, found, read⟩ := Option.bind_eq_some_iff.mp read
  have listed : last ∈ items := List.mem_reverse.mp (List.mem_of_find?_eq_some found)
  have named : last.exportedType? = some name := by simpa using List.find?_some found
  have single : (items.filter (·.exportedType? == some name)).length = 1 := by
    rwa [exportedTypes, List.count_filterMap, List.countP_eq_length_filter] at once
  obtain ⟨only, alone⟩ := List.length_eq_one_iff.mp single
  have same : ∀ item ∈ items, item.exportedType? = some name → item = only := by
    intro item member exported
    have inside : item ∈ items.filter (·.exportedType? == some name) := by simp [member, exported]
    rw [alone] at inside
    exact List.mem_singleton.mp inside
  intro item member exported
  rw [same item member exported, ← same last listed named]
  exact read

theorem returnedMembers?_append {item : Item} {function : String} {front : List Item}
    (others : ∀ callable ∈ functions front, callable.name ≠ function)
    (named : item.function?.any (·.name = function) = true) (tail : List Item) :
    returnedMembers? function (front ++ item :: tail) = item.body.findSome? Item.returned? := by
  have none : front.find? (·.function?.any (·.name = function)) = .none := by
    rw [List.find?_eq_none]
    intro other member
    cases found : other.function? with
    | none => simp
    | some callable =>
      have different := others callable (List.mem_filterMap.mpr ⟨other, member, found⟩)
      simpa using different
  unfold returnedMembers?
  rw [List.find?_append, none]
  simp [named]

end TypedClient
