import Mathlib
import Criteria.Proofs.Json.Written
import Criteria.Proofs.Report.Label

/-!
# Criteria.Proofs.Report.Distinct

Which queries are shown as the same tree.

* `Value.shown` and `Query.shown`: strings without the characters that never reach the screen. Labels
  tell nothing more of a query.
* `labelType_label` and `Value.label_inj`: the label of a value tells the type and the value.
* `Query.heading_eq_iff` and `Query.tree_eq_iff`: what equal labels and equal trees say of queries.
* `trees_distinct`: the same for queries that were read.
-/

namespace Criteria

open Text

/-! ## Characters that are dropped -/

namespace Text

theorem isWordChar_of_isDropped {c : Char} (h : isDropped c) : isWordChar c = false := by
  simp only [isDropped, Bool.or_eq_true, beq_iff_eq] at h
  rcases h with (((rfl | rfl) | rfl) | rfl) | rfl <;> decide

theorem toNat_of_isDropped {c : Char} (h : isDropped c) : c.toNat < 0x20 := by
  simp only [isDropped, Bool.or_eq_true, beq_iff_eq] at h
  rcases h with (((rfl | rfl) | rfl) | rfl) | rfl <;> decide

theorem toList_shown (s : String) : (shown s).toList = s.toList.filter fun c => !isDropped c := by
  rw [shown, visible, String.toList_ofList]

theorem shown_append (s t : String) : shown (s ++ t) = shown s ++ shown t := by
  simp [← String.toList_inj, toList_shown]

theorem shown_eq_self {s : String} (h : ∀ c ∈ s.toList, ¬isDropped c) : shown s = s := by
  rw [← String.toList_inj, toList_shown, List.filter_eq_self]
  simpa using h

theorem shown_of_clean {s : String} (h : Json.Clean s.toList) : shown s = s :=
  shown_eq_self fun c hc hd => absurd (toNat_of_isDropped hd) (not_lt.mpr (h c hc))

end Text

theorem IsPath.shown {w : String} (h : IsPath w) : Text.shown w = w := by
  refine shown_eq_self fun c hc hd => ?_
  have hword := isWordChar_of_isWord h.1 c hc
  rw [isWordChar_of_isDropped hd] at hword
  cases hword

theorem IsPath.blank {w : String} (h : IsPath w) : ' ' ∉ w.toList :=
  fun hmem => absurd (isWordChar_of_isWord h.1 _ hmem) (by decide)

/-! ## What labels tell -/

/-- A value whose string has lost the characters that never reach the screen. -/
def Value.shown : Value → Value
  | .string s => .string (Text.shown s)
  | v => v

namespace Query

mutual

/-- A query whose strings have lost the characters that never reach the screen. -/
def shown : Query → Query
  | .group c items => .group c (shownAll items)
  | .filter op field v => .filter op field v.shown
  | .sort d v => .sort d v.shown
  | .none => .none

def shownAll : List Query → List Query
  | [] => []
  | q :: qs => shown q :: shownAll qs

end

/-- A part without its items. -/
def head : Query → Query
  | .group c _ => .group c []
  | q => q

theorem shownAll_eq_map (qs : List Query) : shownAll qs = qs.map shown := by
  induction qs with
  | nil => rfl
  | cons q qs ih => rw [shownAll, ih, List.map_cons]

end Query

def LabelTree.heading : LabelTree → String
  | .node label _ => label

/-! ## Labels of values -/

/-- The type of a value, told from its label. -/
def labelType (label : String) : String :=
  if label = "true" ∨ label = "false" then "boolean"
  else
    match label.toList with
    | [] => "identifier"
    | c :: cs =>
      if c = '"' then "string"
      else if !isDigit c then "identifier"
      else if cs.all isDigit then "integer"
      else "float"

theorem labelType_number {label : String} {c : Char} {cs : List Char}
    (h : label.toList = c :: cs) (hc : isDigit c) :
    labelType label = if cs.all isDigit then "integer" else "float" := by
  have hne : ∀ d, isDigit d = false → c ≠ d := by
    rintro d hd rfl
    rw [hc] at hd
    cases hd
  have htrue : label ≠ "true" := by
    rintro rfl
    exact hne 't' (by decide) (List.cons_eq_cons.mp h).1.symm
  have hfalse : label ≠ "false" := by
    rintro rfl
    exact hne 'f' (by decide) (List.cons_eq_cons.mp h).1.symm
  simp [labelType, htrue, hfalse, h, hc, hne '"' (by decide)]

/-- A number with a fraction or an exponent starts with a digit and has more than digits. -/
theorem Scientific.exists_cons {digits : ℕ} {e : ℤ} {cs : List Char}
    (h : Scientific false digits e cs) :
    ∃ c ds, cs = c :: ds ∧ isDigit c ∧ ¬ds.all isDigit := by
  obtain ⟨hw, hf, he, hne⟩ := h
  rename_i whole part fraction exponent e
  obtain ⟨hempty, hdigits⟩ := isNumeral_iff.mp hw.1
  obtain ⟨c, ds, rfl⟩ := List.exists_cons_of_ne_nil hempty
  refine ⟨c, ds ++ (fraction ++ exponent), rfl, hdigits c (by simp), ?_⟩
  intro hall
  have hrest : ∀ d ∈ fraction ++ exponent, isDigit d := by
    rw [List.all_append, Bool.and_eq_true] at hall
    exact List.all_eq_true.mp hall.2
  cases hf with
  | point hp => exact absurd (hrest '.' (by simp)) (by decide)
  | none =>
    cases he with
    | scaled negative hd => exact absurd (hrest 'e' (by simp)) (by decide)
    | none => exact hne rfl

namespace Value

variable {v w : Value}

theorem labelType_label (h : v.Canonical) : labelType v.label = v.typeName := by
  cases v with
  | identifier path =>
    obtain ⟨hword, hkey⟩ := h
    have htrue : path ≠ "true" := fun h => hkey (.truth true) h.symm
    have hfalse : path ≠ "false" := fun h => hkey (.truth false) h.symm
    simp only [labelType, label, typeName, htrue, hfalse, or_self, if_false]
    generalize path.toList = cs at *
    cases cs with
    | nil => rfl
    | cons c cs =>
      simp only [isWord, Bool.and_eq_true] at hword
      have hquote : c ≠ '"' := by
        rintro rfl
        exact absurd hword.1 (by decide)
      have hdigit : isDigit c = false := by
        by_contra hd
        rw [isLetter_of_isDigit (by simpa using hd)] at hword
        cases hword.1
      simp [hquote, hdigit]
  | string s =>
    have htrue : "\"" ++ s ++ "\"" ≠ "true" := by
      simp [← String.toList_inj]
    have hfalse : "\"" ++ s ++ "\"" ≠ "false" := by
      simp [← String.toList_inj]
    simp [labelType, label, typeName, htrue, hfalse]
  | boolean b => cases b <;> rfl
  | integer n =>
    obtain ⟨m, rfl⟩ := Int.eq_ofNat_of_zero_le h.1
    obtain ⟨hne, hdigits⟩ := isNumeral_iff.mp (isNumeral_digitsText m)
    obtain ⟨c, cs, hcs⟩ := List.exists_cons_of_ne_nil hne
    rw [hcs] at hdigits
    obtain ⟨hc, hrest⟩ := List.forall_mem_cons.mp hdigits
    rw [label, labelType_number (by rw [intText_natCast, hcs]) hc,
      if_pos (List.all_eq_true.mpr hrest), typeName]
  | float x =>
    obtain ⟨digits, e, hs, -⟩ := Layout.mixed.exists_scientific h.1
    rw [h.2, ← float_label h.1] at hs
    obtain ⟨c, cs, hcs, hc, hrest⟩ := hs.exists_cons
    rw [labelType_number hcs hc, if_neg hrest, typeName]

/-- The label of a value tells the value. -/
theorem label_inj (hv : v.Canonical) (hw : w.Canonical) (h : v.label = w.label) : v = w := by
  have htype : v.typeName = w.typeName := by
    rw [← labelType_label hv, ← labelType_label hw, h]
  cases v with
  | identifier path => cases w with
    | identifier path' => exact congrArg Value.identifier h
    | _ => simp [typeName] at htype
  | string s => cases w with
    | string t =>
      have hst : "\"" ++ s ++ "\"" = "\"" ++ t ++ "\"" := h
      simpa using hst
    | _ => simp [typeName] at htype
  | boolean b => cases w with
    | boolean b' => cases b <;> cases b' <;> first | rfl | exact absurd h (by decide)
    | _ => simp [typeName] at htype
  | integer m => cases w with
    | integer n =>
      obtain ⟨m, rfl⟩ := Int.eq_ofNat_of_zero_le hv.1
      obtain ⟨n, rfl⟩ := Int.eq_ofNat_of_zero_le hw.1
      have hdigits := congrArg (fun s => digitsValue s.toList) h
      simp only [label, intText_natCast, digitsValue_digitsText] at hdigits
      rw [hdigits]
    | _ => simp [typeName] at htype
  | float x => cases w with
    | float y =>
      have htext := congrArg String.toList h
      rw [float_label hv.1, float_label hw.1] at htext
      exact congrArg Value.float (finiteText_inj hv.1 hw.1 (hv.2.trans hw.2.symm) htext)
    | _ => simp [typeName] at htype

theorem Canonical.shown (h : v.Canonical) : v.shown.Canonical := by
  cases v with
  | string s =>
    obtain ⟨hquote, hnul⟩ := h
    constructor
    · rw [toList_shown]
      exact fun hmem => hquote (List.mem_of_mem_filter hmem)
    · rw [toList_shown]
      exact fun hmem => hnul (List.mem_of_mem_filter hmem)
  | _ => exact h

theorem shown_label (h : v.Canonical) : Text.shown v.label = v.shown.label := by
  cases v with
  | identifier path => exact IsPath.shown h
  | string s =>
    have hquote : Text.shown "\"" = "\"" := by decide
    rw [label, shown_append, shown_append, hquote]
    rfl
  | boolean b => cases b <;> decide
  | integer n =>
    obtain ⟨m, rfl⟩ := Int.eq_ofNat_of_zero_le h.1
    refine shown_of_clean ?_
    rw [label, intText_natCast]
    exact Json.clean_numeral (isNumeral_digitsText m)
  | float x =>
    obtain ⟨digits, e, hs, -⟩ := Layout.mixed.exists_scientific h.1
    refine shown_of_clean ?_
    rw [float_label h.1]
    exact Json.clean_scientific hs

end Value

/-! ## Labels of parts -/

theorem append_blank_inj {xs ys zs ws : List Char} (hx : ' ' ∉ xs) (hz : ' ' ∉ zs) :
    xs ++ ' ' :: ys = zs ++ ' ' :: ws ↔ xs = zs ∧ ys = ws := by
  have hspan : ∀ {xs ys : List Char}, ' ' ∉ xs → (xs ++ ' ' :: ys).takeWhile (· != ' ') = xs := by
    intro xs ys h
    refine (span_append (fun c hc => ?_) (by simp)).1
    simp only [bne_iff_ne]
    rintro rfl
    exact h hc
  constructor
  · intro h
    have hxz := congrArg (List.takeWhile (· != ' ')) h
    rw [hspan hx, hspan hz] at hxz
    subst hxz
    exact ⟨rfl, (List.cons_inj_right _).mp (List.append_cancel_left h)⟩
  · rintro ⟨rfl, rfl⟩
    rfl

namespace Comparator

theorem symbol_inj {op op' : Comparator} : op.symbol = op'.symbol ↔ op = op' := by
  cases op <;> cases op' <;> decide

theorem blank_symbol (op : Comparator) : ' ' ∉ op.symbol.toList := by
  cases op <;> decide

theorem shown_symbol (op : Comparator) : Text.shown op.symbol = op.symbol := by
  cases op <;> decide

end Comparator

theorem Combinator.word_inj {c d : Combinator} : c.word = d.word ↔ c = d := by
  cases c <;> cases d <;> decide

namespace Query

variable {op op' : Comparator} {field field' : String} {v w : Value}

/-- A filter is labelled as the filter that is left of it on the screen. -/
theorem heading_filter (hf : IsPath field) (hv : v.Canonical) :
    (filter op field v).tree.heading.toList =
      field.toList ++ ' ' :: (op.symbol.toList ++ ' ' :: v.shown.label.toList) := by
  have hblank : Text.shown " " = " " := by decide
  rw [tree, LabelTree.heading, shown_append, shown_append, shown_append, shown_append, hblank,
    hf.shown, op.shown_symbol, Value.shown_label hv]
  simp

theorem heading_group (c : Combinator) (items : List Query) :
    (group c items).tree.heading = c.word := rfl

theorem heading_filter_ne (hf : IsPath field) (hv : v.Canonical) (c : Combinator)
    (items : List Query) :
    (group c items).tree.heading ≠ (filter op field v).tree.heading := by
  intro h
  have hmem : ' ' ∈ (filter op field v).tree.heading.toList := by
    rw [heading_filter hf hv]
    simp
  rw [← h, heading_group] at hmem
  cases c <;> exact absurd hmem (by decide)

theorem heading_filter_iff (hf : IsPath field) (hv : v.Canonical) (hf' : IsPath field')
    (hw : w.Canonical) :
    (filter op field v).tree.heading = (filter op' field' w).tree.heading ↔
      op = op' ∧ field = field' ∧ v.shown = w.shown := by
  rw [← String.toList_inj, heading_filter hf hv, heading_filter hf' hw,
    append_blank_inj hf.blank hf'.blank, append_blank_inj op.blank_symbol op'.blank_symbol,
    String.toList_inj, String.toList_inj, String.toList_inj, Comparator.symbol_inj]
  constructor
  · rintro ⟨hfield, hop, hlabel⟩
    exact ⟨hop, hfield, Value.label_inj hv.shown hw.shown hlabel⟩
  · rintro ⟨hop, hfield, hvalue⟩
    exact ⟨hfield, hop, congrArg Value.label hvalue⟩

/-- Parts with the same label are groups of one kind, or the same filter on the screen. -/
theorem heading_eq_iff {q r : Query} (hq : q.Canonical) (hr : r.Canonical) :
    q.tree.heading = r.tree.heading ↔ q.shown.head = r.shown.head := by
  cases hq with
  | @group c items h =>
    cases hr with
    | @group d others h' => simp [heading_group, shown, head, Combinator.word_inj]
    | filter hf hv => simp [heading_filter_ne hf hv, shown, head]
  | filter hf hv =>
    cases hr with
    | group h => simp [(heading_filter_ne hf hv _ _).symm, shown, head]
    | filter hf' hw => simp [heading_filter_iff hf hv hf' hw, shown, head]

end Query

/-! ## Trees -/

theorem map_eq_map_congr {α β γ : Type} {f : α → β} {g : α → γ} {as bs : List α}
    (h : ∀ a ∈ as, ∀ b ∈ bs, (f a = f b ↔ g a = g b)) :
    as.map f = bs.map f ↔ as.map g = bs.map g := by
  induction as generalizing bs with
  | nil => cases bs <;> simp
  | cons a as ih =>
    cases bs with
    | nil => simp
    | cons b bs =>
      have htail := ih fun a ha b hb => h a (.tail _ ha) b (.tail _ hb)
      simp only [List.map_cons, List.cons_eq_cons, htail, h a (.head _) b (.head _)]

/-- Canonical queries with the same tree are the same on the screen. -/
theorem Query.tree_eq_iff {q r : Query} (hq : q.Canonical) (hr : r.Canonical) :
    q.tree = r.tree ↔ q.shown = r.shown := by
  induction hq generalizing r with
  | @group c items h ih =>
    cases hr with
    | @group d others h' =>
      have hitems := map_eq_map_congr fun q hq r hr => ih q hq (h' r hr)
      simp [tree, shown, LabelTree.trees_eq_map, shownAll_eq_map, hitems, Combinator.word_inj]
    | filter hf hv =>
      refine iff_of_false (fun heq => ?_) (by simp [shown])
      exact heading_filter_ne hf hv c items (congrArg LabelTree.heading heq)
  | @filter op field v hf hv =>
    cases hr with
    | @group c items h =>
      refine iff_of_false (fun heq => ?_) (by simp [shown])
      exact heading_filter_ne hf hv c items (congrArg LabelTree.heading heq.symm)
    | @filter op' field' w hf' hw =>
      have hheading := @heading_filter_iff op op' _ _ _ _ hf hv hf' hw
      simpa [tree, shown, LabelTree.heading] using hheading

/-- The tree tells which query was read, and the label of a node which part it is of, up to characters
of strings that never reach the screen. No filter is labelled as a group, and values of different
types have different labels. -/
theorem trees_distinct {s₁ s₂ : String} {q r : Query} (hq : parse s₁ = .ok q)
    (hr : parse s₂ = .ok r) :
    ∃ t u, LabelTree.ofJson q.toJson = .ok t ∧ LabelTree.ofJson r.toJson = .ok u ∧
      (t = u ↔ q.shown = r.shown) ∧
      ∀ i j a b, q.at? i = some a → r.at? j = some b →
        ∃ ta ub, t.at? i = some ta ∧ u.at? j = some ub ∧
          (ta.heading = ub.heading ↔ a.shown.head = b.shown.head) := by
  have hqc := canonical_of_parse hq
  have hrc := canonical_of_parse hr
  refine ⟨q.tree, r.tree, LabelTree.ofJson_toJson q, LabelTree.ofJson_toJson r,
    Query.tree_eq_iff hqc hrc, ?_⟩
  intro i j a b ha hb
  refine ⟨a.tree, b.tree, ?_, ?_, Query.heading_eq_iff (hqc.at? ha) (hrc.at? hb)⟩
  · rw [LabelTree.at?_tree, ha, Option.map_some]
  · rw [LabelTree.at?_tree, hb, Option.map_some]

/-- A string that looks like a number, and the number. -/
theorem trees_distinct_quoted :
    parse "or(eq(a,\"1\"),gt(b,1))" =
      .ok (.group .or [.filter .eq "a" (.string "1"), .filter .gt "b" (.integer 1)]) ∧
    parse "or(eq(a,1),gt(b,1))" =
      .ok (.group .or [.filter .eq "a" (.integer 1), .filter .gt "b" (.integer 1)]) ∧
    ∃ t u,
      LabelTree.ofJson (Query.toJson
        (.group .or [.filter .eq "a" (.string "1"), .filter .gt "b" (.integer 1)])) = .ok t ∧
      LabelTree.ofJson (Query.toJson
        (.group .or [.filter .eq "a" (.integer 1), .filter .gt "b" (.integer 1)])) = .ok u ∧
      t ≠ u := by
  have hquoted : parse "or(eq(a,\"1\"),gt(b,1))" =
      .ok (.group .or [.filter .eq "a" (.string "1"), .filter .gt "b" (.integer 1)]) := by cbv
  have hbare : parse "or(eq(a,1),gt(b,1))" =
      .ok (.group .or [.filter .eq "a" (.integer 1), .filter .gt "b" (.integer 1)]) := by cbv
  obtain ⟨t, u, ht, hu, htrees, -⟩ := trees_distinct hquoted hbare
  refine ⟨hquoted, hbare, t, u, ht, hu, ?_⟩
  rw [Ne, htrees]
  simp [Query.shown, Query.shownAll, Value.shown]

/-- Trees do not tell queries apart by the characters that never reach the screen. -/
theorem trees_alike :
    ¬∀ s₁ s₂ q r, parse s₁ = .ok q → parse s₂ = .ok r →
      (LabelTree.ofJson q.toJson = LabelTree.ofJson r.toJson ↔ q = r) := by
  intro h
  have hbell : parse "or(eq(a,\"\x07\"),eq(a,\"\"))" =
      .ok (.group .or [.filter .eq "a" (.string "\x07"), .filter .eq "a" (.string "")]) := by cbv
  have hempty : parse "or(eq(a,\"\"),eq(a,\"\"))" =
      .ok (.group .or [.filter .eq "a" (.string ""), .filter .eq "a" (.string "")]) := by cbv
  have hqueries := (h _ _ _ _ hbell hempty).mp (by cbv)
  simp at hqueries

end Criteria
