import Mathlib
import Criteria.Proofs.Number.Denotation
import Criteria.Proofs.Query.RoundTrip

/-!
# Criteria.Proofs.Query.Literal

Numbers in query texts.

* `Window.OnInteger` and `Window.OnFloat`: the current token is a number with the given digits.
* `numerals_exact`: what is read is the value of the digits, or the number nearest to it. It is
  refused where there is none.
* `float_text_exact`: a number is written without an exponent, and the text stands for the same
  value as the shortest one. A text without a sign is one token, which is read as the number.
-/

namespace Criteria

open Text

namespace Window

/-- The current token is an integer. -/
structure OnInteger (w : Window) (digits : List Char) : Prop where
  numeral : isNumeral digits
  kind : w.current.kind = .int
  literal : w.current.literal = String.ofList digits

/-- The current token is a float, with digits on both sides of its point. -/
structure OnFloat (w : Window) (i f : List Char) : Prop where
  whole : isNumeral i
  part : isNumeral f
  kind : w.current.kind = .float
  literal : w.current.literal = String.ofList (i ++ '.' :: f)

variable {w : Window}

/-! ## Integers -/

namespace OnInteger

variable {ds : List Char}

theorem integer_eq (h : w.OnInteger ds) :
    w.integer = if ds.length ≤ 4300 ∧ wholeValue ds ≤ 2 ^ 63 - 1 then
      .ok (.integer (wholeValue ds)) else .error (.numeral .integer (String.ofList ds)) := by
  have hbound : (digitsValue ds : Int) ≤ int64Max ↔ wholeValue ds ≤ 2 ^ 63 - 1 := by
    rw [wholeValue_eq, int64Max]
    omega
  simp only [integer, if_pos h.kind, h.literal, String.toList_ofList, hbound, wholeValue_eq,
    maxNumeralLength]

theorem value_eq {n : Int} (h : w.OnInteger ds) (hn : w.integer = .ok (.integer n)) :
    n = wholeValue ds := by
  rw [h.integer_eq] at hn
  split at hn
  · cases hn
    rfl
  · cases hn

end OnInteger

/-! ## Floats -/

namespace OnFloat

variable {i f : List Char}

theorem float_eq (h : w.OnFloat i f) :
    w.float = if (Binary64.ofNumeral (i ++ '.' :: f)).isFinite then
      .ok (.float (Binary64.ofNumeral (i ++ '.' :: f)))
      else .error (.numeral .float (String.ofList (i ++ '.' :: f))) := by
  simp only [float, if_pos h.kind, h.literal, String.toList_ofList]

theorem nearest {x : Binary64} (h : w.OnFloat i f) (hx : w.float = .ok (.float x)) :
    x.Nearest (fixedValue (i ++ '.' :: f)) := by
  rw [h.float_eq] at hx
  split at hx
  · rename_i hfinite
    cases hx
    exact Binary64.nearest_ofNumeral h.whole h.part hfinite
  · cases hx

theorem exists_float (h : w.OnFloat i f) (hlt : fixedValue (i ++ '.' :: f) < 2 ^ 1024 - 2 ^ 970) :
    ∃ x, w.float = .ok (.float x) ∧
      ∀ y : Binary64, y.negative = false ∧ y.Nearest (fixedValue (i ++ '.' :: f)) ↔ y = x := by
  have hfinite := (Binary64.isFinite_ofNumeral h.whole h.part).mpr hlt
  have hnear := Binary64.nearest_ofNumeral h.whole h.part hfinite
  have hsign := Binary64.negative_ofNumeral h.whole h.part
  refine ⟨_, by rw [h.float_eq, if_pos hfinite], ?_⟩
  intro y
  constructor
  · rintro ⟨hneg, hy⟩
    exact hy.eq hnear (hneg.trans hsign.symm)
  · rintro rfl
    exact ⟨hsign, hnear⟩

theorem float_error (h : w.OnFloat i f) (hle : 2 ^ 1024 - 2 ^ 970 ≤ fixedValue (i ++ '.' :: f)) :
    w.float = .error (.numeral .float (String.ofList (i ++ '.' :: f))) := by
  have hfinite := mt (Binary64.isFinite_ofNumeral h.whole h.part).mp (not_lt.mpr hle)
  rw [h.float_eq, if_neg hfinite]

end OnFloat

/-- Numbers are read exactly. An integer is the value of its digits, if there are not too many of
them and the value is not too large. A float is the one number nearest to the value of its digits,
unless that is past the finite numbers. So texts of one value are read alike or refused alike, and a
larger value never gives a smaller number. -/
theorem numerals_exact (w v : Window) :
    (∀ ds, w.OnInteger ds →
      w.integer = if ds.length ≤ 4300 ∧ wholeValue ds ≤ 2 ^ 63 - 1 then
        .ok (.integer (wholeValue ds)) else .error (.numeral .integer (String.ofList ds))) ∧
    (∀ i f, w.OnFloat i f →
      (fixedValue (i ++ '.' :: f) < 2 ^ 1024 - 2 ^ 970 →
        ∃ x, w.float = .ok (.float x) ∧
          ∀ y : Binary64, y.negative = false ∧ y.Nearest (fixedValue (i ++ '.' :: f)) ↔ y = x) ∧
      (2 ^ 1024 - 2 ^ 970 ≤ fixedValue (i ++ '.' :: f) →
        w.float = .error (.numeral .float (String.ofList (i ++ '.' :: f))))) ∧
    (∀ ds es, w.OnInteger ds → v.OnInteger es →
      (wholeValue ds = wholeValue es → ds.length ≤ 4300 → es.length ≤ 4300 →
        w.integer.toOption = v.integer.toOption) ∧
      (wholeValue ds < wholeValue es → ∀ n m, w.integer = .ok (.integer n) →
        v.integer = .ok (.integer m) → n ≤ m)) ∧
    ∀ i f j g, w.OnFloat i f → v.OnFloat j g →
      (fixedValue (i ++ '.' :: f) = fixedValue (j ++ '.' :: g) →
        w.float.toOption = v.float.toOption) ∧
      (fixedValue (i ++ '.' :: f) < fixedValue (j ++ '.' :: g) → ∀ x y,
        w.float = .ok (.float x) → v.float = .ok (.float y) → x.toRat ≤ y.toRat) := by
  refine ⟨fun ds h => h.integer_eq, fun i f h => ⟨h.exists_float, h.float_error⟩, ?_, ?_⟩
  · intro ds es hds hes
    refine ⟨?_, ?_⟩
    · intro heq hlen hlen'
      rw [hds.integer_eq, hes.integer_eq, heq]
      by_cases hmax : wholeValue es ≤ 2 ^ 63 - 1
      · rw [if_pos ⟨hlen, hmax⟩, if_pos ⟨hlen', hmax⟩]
      · rw [if_neg (fun h => hmax h.2), if_neg (fun h => hmax h.2)]
        rfl
    · intro hlt n m hn hm
      rw [hds.value_eq hn, hes.value_eq hm]
      omega
  · intro i f j g hi hj
    refine ⟨?_, ?_⟩
    · intro heq
      rw [hi.float_eq, hj.float_eq, Binary64.ofNumeral_congr hi.whole hi.part hj.whole hj.part heq]
      split <;> rfl
    · intro hlt x y hx hy
      exact (hi.nearest hx).mono (hj.nearest hy) hlt.le

/-- A window on one token. -/
def onToken (kind : Token.Kind) (literal : List Char) : Window :=
  ⟨[⟨kind, String.ofList literal, 0⟩], literal.length⟩

theorem onInteger_onToken {ds : List Char} (h : isNumeral ds) : (onToken .int ds).OnInteger ds :=
  ⟨h, rfl, rfl⟩

theorem onFloat_onToken {i f : List Char} (hi : isNumeral i) (hf : isNumeral f) :
    (onToken .float (i ++ '.' :: f)).OnFloat i f :=
  ⟨hi, hf, rfl, rfl⟩

/-- Zeros that do not count, and a number with too many digits before the point. -/
theorem numerals_exact_zeros :
    (onToken .int ['0', '7']).integer = .ok (.integer 7) ∧
    (onToken .int ['0', '7']).integer.toOption = (onToken .int ['7']).integer.toOption ∧
    (∃ x, (onToken .float (['0'] ++ '.' :: ['5', '0'])).float = .ok (.float x) ∧
      x.Nearest (1 / 2)) ∧
    (onToken .float (['0'] ++ '.' :: ['5', '0'])).float.toOption =
      (onToken .float (['0'] ++ '.' :: ['5'])).float.toOption ∧
    ∃ e, (onToken .float (List.replicate 309 '9' ++ '.' :: ['0'])).float = .error e := by
  have hseven : (onToken .int ['7']).OnInteger ['7'] := onInteger_onToken rfl
  have hpadded : (onToken .int ['0', '7']).OnInteger ['0', '7'] := onInteger_onToken rfl
  have hhalf := @onFloat_onToken ['0'] ['5'] rfl rfl
  have hlong := @onFloat_onToken ['0'] ['5', '0'] rfl rfl
  have hlarge := @onFloat_onToken (List.replicate 309 '9') ['0'] (by decide +kernel) rfl
  have hvalue : fixedValue (['0'] ++ '.' :: ['5', '0']) = 1 / 2 := by decide +kernel
  have hvalue' : fixedValue (['0'] ++ '.' :: ['5']) = 1 / 2 := by decide +kernel
  have hlt := (Binary64.isFinite_ofNumeral hlong.whole hlong.part).mp (by decide +kernel)
  have hle := not_lt.mp
    (mt (Binary64.isFinite_ofNumeral hlarge.whole hlarge.part).mpr (by decide +kernel))
  obtain ⟨hread, -, hint, -⟩ := numerals_exact (onToken .int ['0', '7']) (onToken .int ['7'])
  obtain ⟨-, hnear, -, hfloat⟩ := numerals_exact (onToken .float (['0'] ++ '.' :: ['5', '0']))
    (onToken .float (['0'] ++ '.' :: ['5']))
  obtain ⟨-, hfar, -, -⟩ := numerals_exact
    (onToken .float (List.replicate 309 '9' ++ '.' :: ['0'])) (onToken .int ['7'])
  refine ⟨hread _ hpadded, (hint _ _ hpadded hseven).1 rfl (by decide) (by decide), ?_,
    (hfloat _ _ _ _ hlong hhalf).1 (hvalue.trans hvalue'.symm), _, (hfar _ _ hlarge).2 hle⟩
  obtain ⟨x, hx, hunique⟩ := (hnear _ _ hlong).1 hlt
  exact ⟨x, hx, hvalue ▸ ((hunique x).mpr rfl).2⟩

end Window

/-! ## Texts of floats -/

section

variable {x : Binary64}

theorem Value.float_text (hx : x.isFinite) :
    (Value.float x).text.toList = Layout.plain.finiteText x := by
  simp [Value.text, Layout.text, hx]

/-- Without a sign the text is a token, whatever does not go on with it. -/
theorem leads_float (hx : x.isFinite) (hn : x.negative = false) (pos : Int) {rest : List Char}
    (hr : ∀ c ∈ rest.head?, isDigit c = false) :
    (⟨.float, (Value.float x).text, pos⟩ : Token).Leads (Value.float x).text.toList rest := by
  obtain ⟨i, f, hi, hf, htext⟩ := exists_plain x
  rw [hn, ← Value.float_text hx] at htext
  exact .of_lexeme (Token.lexeme_float _ _) ⟨i, f, htext, hi, hf⟩ hr

theorem float_of_text {w : Window} (hx : x.isFinite) (hn : x.negative = false)
    (hk : w.current.kind = .float) (hl : w.current.literal = (Value.float x).text) :
    w.float = .ok (.float x) := by
  obtain ⟨i, f, -, -, -, hread⟩ := Binary64.ofNumeral_finiteText hx hn
  simp only [Window.float, if_pos hk, hl, Value.float_text hx, hread, if_pos hx]

theorem tokenize_of_leads {t : Token} {s : String} (h : t.Leads s.toList []) (hp : t.pos = 0)
    (hn : '\x00' ∉ s.toList) : tokenize s = [t, endOfInput (Utf8.length s.toList)] := by
  have hvisible : visible s = s.toList := by
    have := visible_eq_self hn
    rwa [String.ofList_toList] at this
  have hend := @Munch.done (Utf8.length s.toList) [] (by simp)
  have hmunch := @Munch.token 0 [] s.toList [] t _ (by simp) h (by simpa using hp)
    (by simpa using hend)
  rw [List.nil_append, List.append_nil, ← hvisible] at hmunch
  rw [← hvisible]
  exact (munch_iff s _).mp hmunch

theorem isDigit_of_separator {c : Char} (h : c = ')' ∨ c = ',') : isDigit c = false := by
  rcases h with rfl | rfl <;> decide

end

/-- A finite number is written as digits on both sides of a point, with the value of the shortest
text. Without a sign this is one token, alone and before a closing bracket or a comma, and the token
is read as the number. -/
theorem float_text_exact {x : Binary64} (hx : x.isFinite) :
    (∃ i f, isNumeral i ∧ isNumeral f ∧
      (Value.float x).text.toList = signText x.negative ++ (i ++ '.' :: f)) ∧
    (∃ digits e, Scientific x.negative digits e (Layout.mixed.text x).toList) ∧
    decimalValue (Value.float x).text.toList = decimalValue (Layout.mixed.text x).toList ∧
    (x.negative = false →
      tokenize (Value.float x).text = [⟨.float, (Value.float x).text, 0⟩,
        endOfInput (Utf8.length (Value.float x).text.toList)] ∧
      (∀ (c : Cursor) (rest : List Char), c.rest = (Value.float x).text.toList ++ rest →
        (∀ d ∈ rest.head?, d = ')' ∨ d = ',') →
        c.next.1 = ⟨.float, (Value.float x).text, c.position⟩ ∧ c.next.2.rest = rest) ∧
      ∀ w : Window, w.current.kind = .float → w.current.literal = (Value.float x).text →
        w.float = .ok (.float x)) := by
  have hmixed : (Layout.mixed.text x).toList = Layout.mixed.finiteText x := by
    simp [Layout.text, hx]
  obtain ⟨i, f, hi, hf, htext⟩ := exists_plain x
  obtain ⟨digits, e, hs, -⟩ := Layout.mixed.exists_scientific hx
  refine ⟨⟨i, f, hi, hf, (Value.float_text hx).trans htext⟩, ⟨digits, e, hmixed ▸ hs⟩, ?_, ?_⟩
  · rw [Value.float_text hx, hmixed, decimalValue_finiteText _ hx, decimalValue_finiteText _ hx]
  · intro hn
    refine ⟨?_, ?_, fun w => float_of_text hx hn⟩
    · refine tokenize_of_leads (leads_float hx hn 0 (by simp)) rfl ?_
      rw [Value.float_text hx, htext, hn]
      simp [signText, nul_not_mem_of_isNumeral hi, nul_not_mem_of_isNumeral hf]
    · intro c rest hc hr
      have hleads := leads_float hx hn c.position fun d hd => isDigit_of_separator (hr d hd)
      obtain ⟨htok, hrest, -⟩ := @Cursor.next_leads c [] _ _ _ hc (by simp) hleads (by simp)
      exact ⟨htok, hrest⟩

/-- The shortest text of this number has an exponent. -/
theorem float_text_exact_moved :
    decimalValue "10000000000000000.0".toList = decimalValue "1e+16".toList ∧
    tokenize "10000000000000000.0" = [⟨.float, "10000000000000000.0", 0⟩, endOfInput 19] ∧
    (∀ c : Cursor, c.rest = "10000000000000000.0".toList ++ [')'] →
      c.next.1 = ⟨.float, "10000000000000000.0", c.position⟩ ∧ c.next.2.rest = [')']) ∧
    (Window.onToken .float "10000000000000000.0".toList).float =
      .ok (.float ⟨false, 1076, 496400372629504⟩) := by
  have hx : (⟨false, 1076, 496400372629504⟩ : Binary64).isFinite := by decide
  have htext : (Value.float ⟨false, 1076, 496400372629504⟩).text = "10000000000000000.0" := by
    decide +kernel
  have hmixed : Layout.mixed.text ⟨false, 1076, 496400372629504⟩ = "1e+16" := by decide +kernel
  obtain ⟨-, -, hvalue, hread⟩ := float_text_exact hx
  obtain ⟨htokens, hnext, hfloat⟩ := hread rfl
  rw [htext] at hvalue htokens hnext hfloat
  rw [hmixed] at hvalue
  have hliteral : (Window.onToken .float "10000000000000000.0".toList).current.literal =
      "10000000000000000.0" := String.ofList_toList
  exact ⟨hvalue, htokens, fun c hc => hnext c [')'] hc (by simp), hfloat _ rfl hliteral⟩

end Criteria
