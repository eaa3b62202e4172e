import Mathlib
import Criteria.Report.LabelTree

/-!
# Criteria.Proofs.Report.Tree

The tree that a query is shown as, told from the query and not from its JSON form.

* `Query.tree`: a node for each part, with its label.
* `LabelTree.ofJson_toJson`: this is the tree of the JSON form, so that every query can be shown.
-/

namespace Criteria

@[simp] theorem ok_bind {ε α β : Type} (a : α) (f : α → Except ε β) :
    (Except.ok a >>= f) = f a := rfl

/-- The value in a label. -/
def Value.label : Value → String
  | .identifier path => path
  | .string s => "\"" ++ s ++ "\""
  | .boolean b => if b then "true" else "false"
  | .integer n => intText n
  | .float x => Layout.mixed.text x

mutual

/-- Groups are nodes over their items, all else is a leaf. -/
def Query.tree : Query → LabelTree
  | .group c items => .node c.word (trees items)
  | .filter op field v => .node (Text.shown (field ++ " " ++ op.symbol ++ " " ++ v.label)) []
  | .sort d v => .node (Text.shown ("sort " ++ d.sign ++ v.label)) []
  | .none => .node "none" []

def Query.trees : List Query → List LabelTree
  | [] => []
  | q :: qs => q.tree :: trees qs

end

namespace LabelTree

theorem literalText_toJson (v : Value) : literalText v.toJson = .ok v.label := by
  cases v <;> rfl

theorem comparatorOf_word (op : Comparator) : comparatorOf (.string op.word) = .ok op := by
  cases op <;> rfl

theorem need_self (name : String) (j : Json) (ms : List (String × Json)) :
    Json.need (.object ((name, j) :: ms)) name = .ok j := by
  simp [Json.need, List.lookup]

theorem need_next {key name : String} (h : name ≠ key) (j : Json) (ms : List (String × Json)) :
    Json.need (.object ((key, j) :: ms)) name = Json.need (.object ms) name := by
  simp [Json.need, List.lookup, beq_false_of_ne h]

theorem filterLabel_eq (op : Comparator) (field : String) (v : Value) :
    filterLabel (.object
      [("op", .string op.word), ("field", .string field), ("value", v.toJson)]) =
      .ok (field ++ " " ++ op.symbol ++ " " ++ v.label) := by
  simp [filterLabel, need_self, need_next, comparatorOf_word, literalText_toJson, Json.display]

theorem sortLabel_eq (d : Direction) (v : Value) :
    sortLabel (.object [("direction", .string d.sign), ("value", v.toJson)]) =
      .ok ("sort " ++ d.sign ++ v.label) := by
  simp [sortLabel, need_self, need_next, literalText_toJson, Json.display]

theorem shown_word (c : Combinator) : Text.shown c.word = c.word := by
  cases c <;> decide

theorem shown_none : Text.shown "none" = "none" := by decide

mutual

theorem ofJson_toJson : ∀ q : Query, ofJson q.toJson = .ok q.tree
  | .group c items => by
    have hitems := ofJsons_toJsons items
    have hword := shown_word c
    cases c <;> rw [Combinator.word] at hword <;>
      simp [Query.toJson, Query.tree, ofJson, label, labelText, branch, Except.map,
        Combinator.word, hitems, hword]
  | .filter op field v => by
    simp [Query.toJson, Query.tree, ofJson, label, labelText, branch, Except.map, filterLabel_eq]
  | .sort d v => by
    simp [Query.toJson, Query.tree, ofJson, label, labelText, branch, Except.map, List.lookup,
      sortLabel_eq]
  | .none => by
    simp [Query.toJson, Query.tree, ofJson, label, labelText, branch, Except.map, shown_none]

theorem ofJsons_toJsons : ∀ qs : List Query, ofJsons (Query.toJsons qs) = .ok (Query.trees qs)
  | [] => rfl
  | q :: qs => by
    rw [Query.toJsons, ofJsons, ofJson_toJson q, ofJsons_toJsons qs]
    rfl

end

end LabelTree
end Criteria
