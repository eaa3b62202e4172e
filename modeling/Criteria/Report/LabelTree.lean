import Criteria.Query
import Criteria.Text.Screen

/-!
# Criteria.Report.LabelTree

The tree that a query is shown as. A node's label is read off the query's JSON form, less the
characters that never reach the screen, and the tree is drawn with guides from each node to its
children. Trees of every depth are drawn.
-/

namespace Criteria

/-- Why data cannot be shown. -/
inductive ViewError where
  | missing (name : String)
  | unknownComparator
  | malformed
  /-- The data cannot be written as JSON, for this reason. -/
  | refused (reason : String)
  deriving DecidableEq, Repr

/-- A member that has to be there. -/
def Json.need (j : Json) (name : String) : Except ViewError Json :=
  match j with
  | .object members =>
    match members.lookup name with
    | some v => .ok v
    | none => .error (.missing name)
  | _ => .error .malformed

inductive LabelTree where
  | node (label : String) (children : List LabelTree)

namespace LabelTree

def orNull (j : Option Json) : Json := j.getD .null

/-- A value in a label. -/
def literalText : Json → Except ViewError String
  | .object members =>
    let raw := orNull (members.lookup "value")
    match members.lookup "type" with
    | some (.string "string") => .ok ("\"" ++ raw.display ++ "\"")
    | some (.string "boolean") => .ok (if raw.truthy then "true" else "false")
    | _ => .ok raw.display
  | _ => .error .malformed

def comparatorOf : Json → Except ViewError Comparator
  | .string w =>
    match Comparator.ofWord? w with
    | some c => .ok c
    | none => .error .unknownComparator
  | _ => .error .unknownComparator

def filterLabel (j : Json) : Except ViewError String := do
  let op ← comparatorOf (← j.need "op")
  let field ← j.need "field"
  let literal ← literalText (← j.need "value")
  return field.display ++ " " ++ op.symbol ++ " " ++ literal

def sortLabel (j : Json) : Except ViewError String := do
  let direction ← j.need "direction"
  let literal ← literalText (← j.need "value")
  return "sort " ++ direction.display ++ literal

/-- What a node is labelled with, by the first of the members that say what it is. -/
def labelText (members : List (String × Json)) : Except ViewError String :=
  if (members.lookup "and").isSome then .ok "and"
  else if (members.lookup "or").isSome then .ok "or"
  else
    match members.lookup "filter" with
    | some f => filterLabel f
    | none =>
      match members.lookup "sort" with
      | some s => sortLabel s
      | none => .ok "none"

/-- The label of a node. -/
def label (members : List (String × Json)) : Except ViewError String :=
  (labelText members).map Text.shown

/-- An empty text or object, which has no items just as an empty list has none. -/
def isEmptyPlace : Json → Bool
  | .string s => s.isEmpty
  | .object members => members.isEmpty
  | _ => false

mutual

/-- The tree of a query's JSON form. -/
def ofJson : Json → Except ViewError LabelTree
  | .object members =>
    match label members with
    | .error e => .error e
    | .ok l =>
      match branch "and" members with
      | some (.ok ts) => .ok (.node l ts)
      | some (.error e) => .error e
      | none =>
        match branch "or" members with
        | some (.ok ts) => .ok (.node l ts)
        | some (.error e) => .error e
        | none => .ok (.node l [])
  | _ => .error .malformed

/-- The trees of the items of a member, if there is such a member. -/
def branch (name : String) : List (String × Json) → Option (Except ViewError (List LabelTree))
  | [] => none
  | (key, .array items) :: ms => if key == name then some (ofJsons items) else branch name ms
  | (key, j) :: ms =>
    if key == name then some (if isEmptyPlace j then .ok [] else .error .malformed)
    else branch name ms

def ofJsons : List Json → Except ViewError (List LabelTree)
  | [] => .ok []
  | j :: js =>
    match ofJson j with
    | .error e => .error e
    | .ok t =>
      match ofJsons js with
      | .error e => .error e
      | .ok ts => .ok (t :: ts)

end

/-- The lines of a label, the first one after `first` and the others after `rest`. -/
def labelLines (first rest label : String) : List String :=
  match Text.screenLines label with
  | [] => []
  | l :: ls => (first ++ String.ofList l) :: ls.map fun l => rest ++ String.ofList l

mutual

/-- The lines of a tree: `first` stands before its first line and `rest` before the others. -/
def lines (first rest : String) : LabelTree → List String
  | .node label children => labelLines first rest label ++ childLines rest children

def childLines (lead : String) : List LabelTree → List String
  | [] => []
  | [t] => lines (lead ++ "└── ") (lead ++ "    ") t
  | t :: ts => lines (lead ++ "├── ") (lead ++ "│   ") t ++ childLines lead ts

end

def draw (t : LabelTree) : String :=
  String.join ((t.lines "" "").map fun l => l ++ "\n")

end LabelTree
end Criteria
