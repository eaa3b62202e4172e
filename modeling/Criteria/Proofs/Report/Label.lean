import Mathlib
import Criteria.Proofs.Number.Notation
import Criteria.Proofs.Query.Literal
import Criteria.Proofs.Report.Tree

/-!
# Criteria.Proofs.Report.Label

The labels of filters, against the texts of their values.

* `Query.at?` and `LabelTree.at?`: what stands at a place of a query and of a tree.
* `LabelTree.at?_tree`: the tree of a query has the trees of its parts at the places of the parts.
* `Value.label_eq_text` and `Value.mem_label`: a label spells a value as the text of a query does,
  except for the numbers that are written with an exponent.
* `filter_labels`: the label of each filter of a query that was read.
-/

namespace Criteria

/-! ## Places -/

/-- The part of a query at a place: which item to go to, one step after the other. -/
def Query.at? : Query → List ℕ → Option Query
  | q, [] => some q
  | .group _ items, i :: place => items[i]?.bind fun q => q.at? place
  | _, _ :: _ => Option.none

namespace LabelTree

def at? : LabelTree → List ℕ → Option LabelTree
  | t, [] => some t
  | .node _ children, i :: place => children[i]?.bind fun t => t.at? place

theorem trees_eq_map (qs : List Query) : Query.trees qs = qs.map Query.tree := by
  induction qs with
  | nil => rfl
  | cons q qs ih => rw [Query.trees, ih, List.map_cons]

theorem at?_tree (q : Query) (place : List ℕ) :
    q.tree.at? place = (q.at? place).map Query.tree := by
  induction place generalizing q with
  | nil =>
    cases q <;> rfl
  | cons i place ih =>
    cases q with
    | group c items =>
      rw [Query.tree, at?, Query.at?, trees_eq_map, List.getElem?_map]
      cases items[i]? with
      | none => rfl
      | some r => exact ih r
    | filter op field v => rfl
    | sort d v => rfl
    | none => rfl

end LabelTree

/-! ## Literals -/

namespace Value

variable {x : Binary64}

theorem float_label (hx : x.isFinite) :
    (Value.float x).label.toList = Layout.mixed.finiteText x := by
  simp [label, Layout.text, hx]

/-- Labels and texts spell all values alike but for very small and very large numbers. -/
theorem label_eq_text {v : Value} (h : v.Canonical)
    (hv : ∀ x, v = .float x → x.IsModerate) : v.label = v.text := by
  cases v with
  | identifier | string | integer => rfl
  | boolean b => cases b <;> rfl
  | float x =>
    have hpos := (positional_iff h.1 h.2).mpr (hv x rfl)
    rw [← String.toList_inj, float_label h.1, float_text h.1, mixed_eq_plain hpos]

theorem mem_label (h : (Value.float x).Canonical) (hsize : ¬x.IsModerate) :
    'e' ∈ (Value.float x).label.toList := by
  rw [float_label h.1, mem_mixed_iff, positional_iff h.1 h.2]
  exact hsize

theorem not_mem_text (hx : x.isFinite) : 'e' ∉ (Value.float x).text.toList := by
  rw [float_text hx]
  exact not_mem_plain x

theorem decimalValue_label (hx : x.isFinite) :
    decimalValue (Value.float x).label.toList = decimalValue (Value.float x).text.toList := by
  rw [float_label hx, float_text hx, decimalValue_finiteText _ hx, decimalValue_finiteText _ hx]

end Value

/-- The parts of a canonical query are canonical. -/
theorem Query.Canonical.at? {q r : Query} {place : List ℕ} (h : q.Canonical)
    (hr : q.at? place = some r) : r.Canonical := by
  induction place generalizing q with
  | nil =>
    cases h <;> cases hr
    · rename_i h
      exact .group h
    · rename_i hf hv
      exact .filter hf hv
  | cons i place ih =>
    cases h with
    | group h =>
      obtain ⟨p, hp, hr⟩ := Option.bind_eq_some_iff.mp hr
      exact ih (h p (List.mem_of_getElem? hp)) hr
    | filter hf hv => cases hr

/-- Each filter of a query that was read stands at its place in the tree, as field, symbol and value.
The value is spelled as in the text of the query, except for a float that is neither zero nor from
`10 ^ -4` up to `10 ^ 16`. That one has an exponent in the tree and none in the text, and the value
of both is the same. -/
theorem filter_labels {s : String} {q : Query} (h : parse s = .ok q) :
    ∃ t, LabelTree.ofJson q.toJson = .ok t ∧
      ∀ place op field v, q.at? place = some (.filter op field v) →
        ∃ literal, LabelTree.literalText v.toJson = .ok literal ∧
          t.at? place =
            some (.node (Text.shown (field ++ " " ++ op.symbol ++ " " ++ literal)) []) ∧
          ((∀ x, v = .float x → x.IsModerate) → literal = v.text) ∧
          ∀ x, v = .float x → ¬x.IsModerate →
            'e' ∈ literal.toList ∧ 'e' ∉ v.text.toList ∧
              decimalValue literal.toList = decimalValue v.text.toList := by
  refine ⟨q.tree, LabelTree.ofJson_toJson q, ?_⟩
  intro place op field v hplace
  have hv : v.Canonical := by
    cases (canonical_of_parse h).at? hplace with
    | filter hf hv => exact hv
  refine ⟨v.label, LabelTree.literalText_toJson v, ?_, Value.label_eq_text hv, ?_⟩
  · rw [LabelTree.at?_tree, hplace]
    rfl
  · rintro x rfl hsize
    exact ⟨Value.mem_label hv hsize, Value.not_mem_text hv.1, Value.decimalValue_label hv.1⟩

/-- A small number in the tree and in the text. -/
theorem filter_labels_exponent :
    parse "gt(a,0.00001)" = .ok (.filter .gt "a" (.float ⟨false, 1006, 1399358476216561⟩)) ∧
    (Value.float ⟨false, 1006, 1399358476216561⟩).text = "0.00001" ∧
    (∃ t, LabelTree.ofJson (Query.toJson (.filter .gt "a"
        (.float ⟨false, 1006, 1399358476216561⟩))) = .ok t ∧
      t.at? [] = some (.node "a > 1e-05" [])) ∧
    decimalValue "1e-05".toList = decimalValue "0.00001".toList := by
  have htext : (Value.float ⟨false, 1006, 1399358476216561⟩).text = "0.00001" := by decide +kernel
  have hlabel : (Value.float ⟨false, 1006, 1399358476216561⟩).label = "1e-05" := by decide +kernel
  have hpath : IsPath "a" := ⟨by decide, Keyword.ofWord?_eq_none_iff.mp (by decide)⟩
  have hcanonical : (Query.filter .gt "a" (.float ⟨false, 1006, 1399358476216561⟩)).Canonical :=
    .filter hpath ⟨rfl, rfl⟩
  have hparse := hcanonical.parse_text.1
  rw [Query.text, htext] at hparse
  obtain ⟨t, ht, hplaces⟩ := filter_labels hparse
  obtain ⟨literal, hliteral, hnode, -, hsmall⟩ := hplaces [] _ _ _ rfl
  rw [LabelTree.literalText_toJson, hlabel] at hliteral
  cases hliteral
  refine ⟨hparse, htext, ⟨t, ht, hnode⟩, ?_⟩
  rw [← htext]
  refine (hsmall _ rfl ?_).2.2
  simp [Binary64.IsModerate, Binary64.toRat, Binary64.sign, Binary64.significand]
  norm_num

end Criteria
