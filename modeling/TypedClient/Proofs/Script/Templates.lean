import TypedClient.Proofs.Script.Reading

/-! What a template literal says.

Between its holes are characters, in which every line break counts as a line feed. In a hole is code, which
may have templates with holes in it.
-/

set_option autoImplicit false

namespace TypedClient.Script

def plainBreaks : List Char → List Char
  | [] => []
  | '\r' :: '\n' :: rest => '\n' :: plainBreaks rest
  | '\r' :: rest => '\n' :: plainBreaks rest
  | c :: rest => c :: plainBreaks rest

inductive TemplatePart where
  | chunk (value : String)
  | hole (code : List Token)
  deriving DecidableEq, Repr

/-- The parts of a template from its tokens. In a hole, its code up to here is kept, and how many holes are
open in this code. -/
def partsFrom? : Option (List Token × Nat) → List Token → Option (List TemplatePart)
  -- Between holes.
  | none, [.chunk value, .endTemplate] => some [.chunk value]
  | none, .chunk value :: .openHole :: rest => (partsFrom? (some ([], 0)) rest).map (.chunk value :: ·)
  -- In a hole, which ends where none is open in its code.
  | some (code, 0), .closeHole :: rest => (partsFrom? none rest).map (.hole code :: ·)
  | some (code, depth + 1), .closeHole :: rest => partsFrom? (some (code ++ [.closeHole], depth)) rest
  | some (code, depth), .openHole :: rest => partsFrom? (some (code ++ [.openHole], depth + 1)) rest
  | some (code, depth), token :: rest => partsFrom? (some (code ++ [token], depth)) rest
  | _, _ => none

def templateParts? (text : String) : Option (List TemplatePart) := do
  partsFrom? none (← tokens? (String.ofList (plainBreaks text.toList)))

theorem plainBreaks_of_not_mem {text : List Char} (plain : '\r' ∉ text) : plainBreaks text = text := by
  induction text using plainBreaks.induct with
  | case1 => rfl
  | case2 | case3 => exact absurd List.mem_cons_self plain
  | case4 c rest first second ih =>
    rw [plainBreaks, ih (fun inside => plain (.tail _ inside))]
    · exact first
    · exact second

section Holes
variable {first second code rest : List Token} {value : String}

/-- Every hole that is opened in the code is closed in it. -/
def Shut (code : List Token) : Prop := ∀ begun depth rest,
  partsFrom? (some (begun, depth)) (code ++ rest) = partsFrom? (some (begun ++ code, depth)) rest

theorem Shut.nil : Shut [] := fun begun _ _ => by rw [List.append_nil, List.nil_append]

theorem Shut.append (before : Shut first) (behind : Shut second) : Shut (first ++ second) := by
  intro begun depth rest
  rw [List.append_assoc, before, behind, List.append_assoc]

def Token.inert : Token → Bool
  | .openHole | .closeHole => false
  | _ => true

theorem shut_of_inert (inert : ∀ token ∈ code, token.inert = true) : Shut code := by
  induction code with
  | nil => exact .nil
  | cons token code ih =>
    have alone : Shut [token] := by
      intro begun depth rest
      have harmless := inert token List.mem_cons_self
      cases token with
      | openHole | closeHole => cases harmless
      | _ => cases depth <;> rfl
    exact alone.append (ih fun other inside => inert other (.tail _ inside))

theorem Shut.hole (shut : Shut code) : Shut (.openHole :: code ++ [.closeHole]) := by
  intro begun depth rest
  have opens : partsFrom? (some (begun, depth)) (.openHole :: (code ++ .closeHole :: rest)) =
      partsFrom? (some (begun ++ [.openHole], depth + 1)) (code ++ .closeHole :: rest) := by
    cases depth <;> rfl
  have closes : partsFrom? (some (begun ++ [.openHole] ++ code, depth + 1)) (.closeHole :: rest) =
      partsFrom? (some (begun ++ [.openHole] ++ code ++ [.closeHole], depth)) rest := rfl
  simpa [shut _ _ _] using opens.trans ((shut _ _ _).trans closes)

theorem Shut.partsFrom? (shut : Shut code) : partsFrom? none (.chunk value :: .openHole ::
    (code ++ .closeHole :: rest)) = (Script.partsFrom? none rest).map fun parts =>
      .chunk value :: .hole code :: parts := by
  have opens : Script.partsFrom? none (.chunk value :: .openHole :: (code ++ .closeHole :: rest)) =
      (Script.partsFrom? (some ([], 0)) (code ++ .closeHole :: rest)).map (.chunk value :: ·) := rfl
  have closes : Script.partsFrom? (some ([] ++ code, 0)) (.closeHole :: rest) =
      (Script.partsFrom? none rest).map (.hole code :: ·) := rfl
  rw [opens, shut, closes, Option.map_map]
  rfl

end Holes

end TypedClient.Script
