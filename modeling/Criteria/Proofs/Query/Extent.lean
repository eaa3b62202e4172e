import Mathlib
import Criteria.Proofs.Query.Content
import Criteria.Proofs.Query.Descent
import Criteria.Proofs.Token.Front

/-!
# Criteria.Proofs.Query.Extent

How far the query at the start of a text goes. It ends with its closing bracket, and what follows
has no say in it.

* `queryEnd`: the number of characters up to the end of the query.
* `Extent`: characters that are a query, whatever follows them.
* `exists_extent` and `Extent.parse_eq`: a text is read as a query exactly if it starts with an
  extent of it, and then `queryEnd` is where the extent ends.
* `parse_self_delimiting`: any text may follow the end of a query, and no less of it is a query.
-/

namespace Criteria

open Text

/-- The number of tokens of the query at the start of a text. -/
def queryLength (s : String) : Nat :=
  (Window.ofText s).tokens.length - (parseQuery (Window.ofText s)).window.tokens.length

/-- The number of characters up to the end of its last token. -/
def queryEnd (s : String) : Nat :=
  ((Cursor.ofText s).after (queryLength s)).index

/-- The characters `front` hold the tokens `us` at the start of a text, whatever follows, and the
tokens derive the query. -/
structure Extent (front : List Char) (us : List Token) (q : Query) : Prop where
  holds : ∀ rest, Front 0 us front rest
  derives : Derives us q
  nul : '\x00' ∉ front

theorem Derives.exists_rparen {ts : List Token} {q : Query} (h : Derives ts q) :
    ∃ us t, ts = us ++ [t] ∧ t.kind = .rparen := by
  cases h with
  | filter h =>
    cases h with
    | mk hw ho hn hc hv hr => exact ⟨[_, _, _, _, _], _, rfl, hr⟩
  | group hw ho hl hr => exact ⟨_ :: _ :: _, _, rfl, hr⟩

theorem exists_extent {s : String} {q : Query} (h : parse s = .ok q) :
    ∃ front rest us, s.toList = front ++ rest ∧ Extent front us q := by
  obtain ⟨us, hd, htokens, -⟩ := parseQuery_ahead (w := Window.ofText s) h
  have hmunch := (munch_iff s _).mpr rfl
  rw [tokenize_eq, htokens, List.append_assoc] at hmunch
  obtain ⟨front, rest, hvisible, hfront, -⟩ := hmunch.exists_front (by simp)
  obtain ⟨us', t, rfl, hk⟩ := hd.exists_rparen
  obtain ⟨-, -, -, hall⟩ := hfront.closed hk
  have hnul : '\x00' ∉ front := by
    intro hn
    exact not_mem_visible s (by rw [hvisible]; simp [hn])
  refine ⟨front, rest ++ s.toList.dropWhile (· != '\x00'), _, ?_, hall, hd, hnul⟩
  rw [← List.append_assoc, ← hvisible, visible, List.takeWhile_append_dropWhile]

namespace Extent

variable {front rest : List Char} {us : List Token} {q : Query} {s : String}

theorem visible_eq (h : Extent front us q) (hs : s.toList = front ++ rest) :
    visible s = front ++ rest.takeWhile (· != '\x00') := by
  have hne : ∀ c ∈ front, (c != '\x00') = true := by
    intro c hc
    rw [bne_iff_ne]
    rintro rfl
    exact h.nul hc
  rw [visible, hs, List.takeWhile_append_of_pos hne]

/-- A text that starts with an extent starts with its tokens. -/
theorem exists_tokens (h : Extent front us q) (hs : s.toList = front ++ rest) :
    ∃ vs, (Window.ofText s).tokens = us ++ vs := by
  obtain ⟨ts, hts⟩ := exists_munch (0 + Utf8.length front) (rest.takeWhile (· != '\x00'))
  obtain ⟨vs, rfl, -⟩ := hts.exists_split
  have hmunch := (h.holds _).munch hts
  rw [← h.visible_eq hs, ← List.append_assoc] at hmunch
  exact ⟨vs, tokens_ofText hmunch⟩

theorem parse_eq (h : Extent front us q) (hs : s.toList = front ++ rest) : parse s = .ok q := by
  obtain ⟨vs, hvs⟩ := h.exists_tokens hs
  exact (Progress.parseQuery_of_derives hvs h.derives).1

theorem window_eq (h : Extent front us q) (hs : s.toList = front ++ rest) :
    (parseQuery (Window.ofText s)).window = (Window.ofText s).ahead us.length := by
  obtain ⟨vs, hvs⟩ := h.exists_tokens hs
  rw [(Progress.parseQuery_of_derives hvs h.derives).2, Window.ahead, hvs, List.drop_left' rfl]

theorem queryLength_eq (h : Extent front us q) (hs : s.toList = front ++ rest) :
    queryLength s = us.length := by
  obtain ⟨vs, hvs⟩ := h.exists_tokens hs
  rw [queryLength, h.window_eq hs, Window.ahead, List.length_drop, hvs, List.length_append]
  omega

theorem queryEnd_eq (h : Extent front us q) (hs : s.toList = front ++ rest) :
    queryEnd s = front.length := by
  have hvisible := h.visible_eq hs
  have hrest := (h.holds _).rest_after (c := Cursor.ofText s) hvisible
  have hlength := Cursor.length_after (Cursor.ofText s) us.length
  have hwhole : (Cursor.ofText s).length = (visible s).length := Nat.zero_add _
  rw [hwhole, hvisible, List.length_append, Cursor.length, hrest] at hlength
  rw [queryEnd, h.queryLength_eq hs]
  omega

theorem take_queryEnd (h : Extent front us q) (hs : s.toList = front ++ rest) :
    s.toList.take (queryEnd s) = front := by
  rw [h.queryEnd_eq hs, hs, List.take_left' rfl]

/-- The last token of the query is its closing bracket. -/
theorem exists_closing (h : Extent front us q) (hs : s.toList = front ++ rest) :
    ∃ before, s.toList.take (queryEnd s) = before ++ [')'] ∧
      stream s (queryLength s - 1) = ⟨.rparen, "", Utf8.length before⟩ := by
  obtain ⟨us', t, rfl, hk⟩ := h.derives.exists_rparen
  obtain ⟨before, hfront, ht, -⟩ := (h.holds rest).closed hk
  obtain ⟨vs, hvs⟩ := h.exists_tokens hs
  refine ⟨before, (h.take_queryEnd hs).trans hfront, ?_⟩
  rw [h.queryLength_eq hs, stream_eq, hvs, ht]
  simp

end Extent

/-- Where a text is read as a query, the end of the query is right after the closing bracket that is
its last token. With anything else after that end, and with anything after the whole text, the same
query is read. A text that is cut before the end of the query is no query. -/
theorem parse_self_delimiting (s : String) (q : Query) (h : parse s = .ok q) :
    (∃ before, s.toList.take (queryEnd s) = before ++ [')'] ∧
      stream s (queryLength s - 1) = ⟨.rparen, "", Utf8.length before⟩ ∧
      (parseQuery (Window.ofText s)).window.current = stream s (queryLength s)) ∧
    (∀ t, parse (String.ofList (s.toList.take (queryEnd s)) ++ t) = .ok q ∧
      parse (s ++ t) = .ok q) ∧
    ∀ m < queryEnd s, ∃ e, parse (String.ofList (s.toList.take m)) = .error e := by
  obtain ⟨front, rest, us, hs, hx⟩ := exists_extent h
  refine ⟨?_, ?_, ?_⟩
  · obtain ⟨before, hfront, ht⟩ := hx.exists_closing hs
    refine ⟨before, hfront, ht, ?_⟩
    rw [hx.queryLength_eq hs, hx.window_eq hs]
    exact Window.current_ahead _ _
  · intro t
    rw [hx.take_queryEnd hs]
    have hcut : (String.ofList front ++ t).toList = front ++ t.toList := by
      rw [String.toList_append, String.toList_ofList]
    have hlong : (s ++ t).toList = front ++ (rest ++ t.toList) := by
      rw [String.toList_append, hs, List.append_assoc]
    exact ⟨hx.parse_eq hcut, hx.parse_eq hlong⟩
  · intro m hm
    cases hcut : parse (String.ofList (s.toList.take m)) with
    | error e => exact ⟨e, rfl⟩
    | ok r =>
      -- an extent in the part before `m` would be the extent in the whole text
      obtain ⟨front', rest', us', hs', hx'⟩ := exists_extent hcut
      rw [String.toList_ofList] at hs'
      have hwhole : s.toList = front' ++ (rest' ++ s.toList.drop m) := by
        rw [← List.append_assoc, ← hs', List.take_append_drop]
      have hlen := congrArg List.length hs'
      rw [List.length_take, List.length_append] at hlen
      have hend := hx'.queryEnd_eq hwhole
      omega

/-- After the query a string is opened, which swallows all that is appended to the text. -/
theorem parse_before_open_string :
    parse "eq(a,5)\"b" = .ok (.filter .eq "a" (.integer 5)) ∧
    (∃ before, "eq(a,5)\"b".toList.take (queryEnd "eq(a,5)\"b") = before ++ [')'] ∧
      stream "eq(a,5)\"b" (queryLength "eq(a,5)\"b" - 1) = ⟨.rparen, "", Utf8.length before⟩ ∧
      (parseQuery (Window.ofText "eq(a,5)\"b")).window.current =
        stream "eq(a,5)\"b" (queryLength "eq(a,5)\"b")) ∧
    (∀ t, parse (String.ofList ("eq(a,5)\"b".toList.take (queryEnd "eq(a,5)\"b")) ++ t) =
        .ok (.filter .eq "a" (.integer 5)) ∧
      parse ("eq(a,5)\"b" ++ t) = .ok (.filter .eq "a" (.integer 5))) ∧
    ∀ m < queryEnd "eq(a,5)\"b", ∃ e, parse (String.ofList ("eq(a,5)\"b".toList.take m)) = .error e :=
  ⟨by cbv, parse_self_delimiting _ _ (by cbv)⟩

end Criteria
