import Mathlib
import Criteria.Token.Lexer

/-!
# Criteria.Proofs.Token.Lexical

One token and its place in a text, said without the scanner.

* `Token.Lexical`: the literals that a token of each kind can carry.
* `Token.Longest`: nothing after the token continues it.
* `Token.Leads`: the token stands at the front of a text and is as long as can be there. A string
  without its closing quote leads a text only if it takes all of it.
* `Token.Leads.scan_eq` and `Token.exists_leads`: one token leads every text that starts with no
  blank, and `Lexeme.scan` finds it.
-/

namespace Criteria

open Text

/-- A letter, then letters and digits. -/
def isWord : List Char → Bool
  | [] => false
  | c :: cs => isLetter c && cs.all isWordChar

/-- One digit or more. -/
def isNumeral (cs : List Char) : Bool :=
  !cs.isEmpty && cs.all isDigit

/-- A character that nothing starts with: no blank, bracket, comma, sign, quote, letter or digit. -/
def isStray (c : Char) : Bool :=
  !isBlank c && !(['(', ')', ',', '+', '-', '"'].contains c) && !isLetter c && !isDigit c

namespace Token

/-- The token as it stands in a text: as it is written, an illegal character as itself. -/
def lexeme (t : Token) : List Char :=
  if t.kind = .illegal then t.literal.toList else t.text.toList

/-- Tokens that some text holds, the end of input apart. A word is an identifier only if it is no
keyword. -/
def Lexical (t : Token) : Prop :=
  match t.kind with
  | .illegal => ∃ c, t.literal.toList = [c] ∧ isStray c
  | .eof => False
  | .ident => isWord t.literal.toList ∧ ∀ k : Keyword, k.word ≠ t.literal
  | .int => isNumeral t.literal.toList
  | .float => ∃ i f, t.literal.toList = i ++ '.' :: f ∧ isNumeral i ∧ isNumeral f
  | .str => '"' ∉ t.literal.toList
  | .keyword _ | .plus | .minus | .comma | .lparen | .rparen => t.literal = ""

/-- `rest` does not go on with the token. -/
def Longest (t : Token) (rest : List Char) : Prop :=
  match t.kind with
  | .ident | .keyword _ => ∀ c ∈ rest.head?, isWordChar c = false
  | .int =>
    (∀ c ∈ rest.head?, isDigit c = false) ∧ ∀ d ds, rest = '.' :: d :: ds → isDigit d = false
  | .float => ∀ c ∈ rest.head?, isDigit c = false
  | _ => True

/-- The token stands at the front of the text `shape ++ rest`, as `shape`, and is longest. -/
inductive Leads (t : Token) : List Char → List Char → Prop where
  | closed {rest : List Char} (ht : t.Lexical) (hl : t.Longest rest) : Leads t t.lexeme rest
  | unclosed (hk : t.kind = .str) (hq : '"' ∉ t.literal.toList) :
      Leads t ('"' :: t.literal.toList) []

end Token

/-! ## Characters and words -/

theorem isLetter_of_isDigit {c : Char} (h : isDigit c) : isLetter c = false := by
  have h' : 48 ≤ c.toNat ∧ c.toNat ≤ 57 := by
    simpa [isDigit, Char.isDigit, UInt32.le_iff_toNat_le] using h
  have hne : ∀ d : Char, d.toNat < 48 ∨ 57 < d.toNat → c ≠ d := by
    rintro d hd rfl; omega
  have hlow : c.toNat < 0x80 := by omega
  have halpha : c.isAlpha = false := by
    simp [Char.isAlpha, Char.isUpper, Char.isLower, UInt32.le_iff_toNat_le, ← Char.toNat_val] at h' ⊢
    omega
  simp [isLetter, isAlphabetic, hlow, halpha, hne '_' (by decide), hne '.' (by decide),
    hne '$' (by decide)]

theorem isWordChar_of_isLetter {c : Char} (h : isLetter c) : isWordChar c = true := by
  simp [isWordChar, h]

theorem isWordChar_of_isDigit {c : Char} (h : isDigit c) : isWordChar c = true := by
  simp [isWordChar, h]

theorem isWordChar_of_isWord {w : List Char} (h : isWord w) : ∀ c ∈ w, isWordChar c := by
  cases w with
  | nil => cases h
  | cons c cs =>
    simp only [isWord, Bool.and_eq_true, List.all_eq_true] at h
    exact List.forall_mem_cons.mpr ⟨isWordChar_of_isLetter h.1, h.2⟩

theorem isWordChar_of_isNumeral {ds : List Char} (h : isNumeral ds) : ∀ c ∈ ds, isWordChar c := by
  simp only [isNumeral, Bool.and_eq_true, List.all_eq_true] at h
  intro c hc
  exact isWordChar_of_isDigit (h.2 c hc)

/-- Only words and numbers start with letters and digits. -/
theorem not_mem_of_isWordChar {c : Char} (h : isWordChar c) :
    c ∉ ['(', ')', ',', '+', '-', '"'] := by
  intro hc
  simp only [List.mem_cons, List.not_mem_nil, or_false] at hc
  rcases hc with rfl | rfl | rfl | rfl | rfl | rfl <;> revert h <;> decide

theorem isWordChar_of_isBlank {c : Char} (h : isBlank c) : isWordChar c = false := by
  simp only [isBlank, Bool.or_eq_true, beq_iff_eq] at h
  rcases h with ((rfl | rfl) | rfl) | rfl <;> decide

theorem isBlank_of_isWordChar {c : Char} (h : isWordChar c) : isBlank c = false := by
  cases hb : isBlank c with
  | false => rfl
  | true => rw [isWordChar_of_isBlank hb] at h; cases h

theorem isDigit_of_isWordChar {c : Char} (h : isWordChar c = false) : isDigit c = false := by
  cases hd : isDigit c with
  | false => rfl
  | true => rw [isWordChar_of_isDigit hd] at h; cases h

namespace Keyword

theorem mem_all (k : Keyword) : k ∈ all := by
  rcases k with (_ | _) | c | c | r
  · decide
  · decide
  · cases c <;> decide
  · cases c <;> decide
  · cases r <;> decide

theorem ofWord?_word (k : Keyword) : ofWord? k.word = some k := by
  have h : ∀ k ∈ all, ofWord? k.word = some k := by decide
  exact h k (mem_all k)

theorem ofWord?_eq_some_iff {w : String} {k : Keyword} : ofWord? w = some k ↔ k.word = w := by
  constructor
  · intro h
    simpa using List.find?_some h
  · rintro rfl; exact ofWord?_word k

theorem ofWord?_eq_none_iff {w : String} : ofWord? w = none ↔ ∀ k : Keyword, k.word ≠ w := by
  constructor
  · rintro h k rfl
    rw [ofWord?_word] at h; cases h
  · intro h
    cases hw : ofWord? w with
    | none => rfl
    | some k => exact absurd (ofWord?_eq_some_iff.mp hw) (h k)

theorem isWord_word (k : Keyword) : isWord k.word.toList := by
  have h : ∀ k ∈ all, isWord k.word.toList := by decide
  exact h k (mem_all k)

end Keyword

/-! ## Scanning one token -/

/-- Cutting a list where a property ends. -/
theorem span_append {p : Char → Bool} {xs ys : List Char} (hx : ∀ c ∈ xs, p c)
    (hy : ∀ c ∈ ys.head?, p c = false) :
    (xs ++ ys).takeWhile p = xs ∧ (xs ++ ys).dropWhile p = ys := by
  rw [List.takeWhile_append_of_pos hx, List.dropWhile_append_of_pos hx]
  cases ys with
  | nil => simp
  | cons y ys => simp [hy y rfl]

theorem head?_dropWhile (p : Char → Bool) (cs : List Char) :
    ∀ c ∈ (cs.dropWhile p).head?, p c = false := by
  intro c hc
  have h := List.head?_dropWhile_not p cs
  rw [Option.mem_def] at hc
  rw [hc] at h
  exact h

theorem all_of_takeWhile (p : Char → Bool) (cs : List Char) : ∀ c ∈ cs.takeWhile p, p c := by
  intro c hc
  exact List.all_eq_true.mp List.all_takeWhile c hc

theorem mem_intercalate {α : Type} {x : α} {sep : List α} {xss : List (List α)}
    (h : x ∈ sep.intercalate xss) : x ∈ sep ∨ ∃ xs ∈ xss, x ∈ xs := by
  induction xss with
  | nil => simp at h
  | cons xs xss ih =>
    cases xss with
    | nil => exact .inr ⟨xs, by simp, by simpa using h⟩
    | cons ys xss =>
      rw [List.intercalate_cons_cons, List.mem_append, List.mem_append] at h
      rcases h with (h | h) | h
      · exact .inr ⟨xs, by simp, h⟩
      · exact .inl h
      · obtain hsep | ⟨zs, hzs, hx⟩ := ih h
        · exact .inl hsep
        · exact .inr ⟨zs, List.mem_cons_of_mem _ hzs, hx⟩

namespace Lexeme

theorem punctuation?_eq_none {c : Char} (h : c ∉ ['(', ')', ',', '+', '-', '"']) :
    punctuation? c = none := by
  unfold punctuation?
  split <;> simp_all

theorem scan_word {w rest : List Char} (hw : isWord w) (hr : ∀ c ∈ rest.head?, isWordChar c = false) :
    scan (w ++ rest) = word w := by
  cases w with
  | nil => cases hw
  | cons c cs =>
    simp only [isWord, Bool.and_eq_true, List.all_eq_true] at hw
    have hc := not_mem_of_isWordChar (isWordChar_of_isLetter hw.1)
    have hq : c ≠ '"' := by rintro rfl; exact hc (by simp)
    simp [scan, punctuation?_eq_none hc, hq, hw.1, (span_append hw.2 hr).1]

/-- All digits are taken before the point is looked at. -/
theorem scan_numeral {ds rest : List Char} (hd : isNumeral ds)
    (hr : ∀ c ∈ rest.head?, isDigit c = false) : scan (ds ++ rest) = number ds rest := by
  cases ds with
  | nil => cases hd
  | cons c cs =>
    have hd' : isDigit c ∧ ∀ d ∈ cs, isDigit d := by simpa [isNumeral] using hd
    have hc := not_mem_of_isWordChar (isWordChar_of_isDigit hd'.1)
    have hq : c ≠ '"' := by rintro rfl; exact hc (by simp)
    obtain ⟨htake, hdrop⟩ := span_append hd'.2 hr
    simp [scan, punctuation?_eq_none hc, hq, isLetter_of_isDigit hd'.1, hd'.1, htake, hdrop]

theorem scan_string {body rest : List Char} (hq : '"' ∉ body)
    (hr : ∀ c ∈ rest.head?, c = '"') :
    scan ('"' :: (body ++ rest)) = ⟨.str, body, body.length + 2⟩ := by
  have hbody : ∀ c ∈ body, (c != '"') = true := by
    intro c hc
    simp only [bne_iff_ne, ne_eq]
    rintro rfl
    exact hq hc
  have hrest : ∀ c ∈ rest.head?, (c != '"') = false := by
    intro c hc
    simp [hr c hc]
  show string (body ++ rest) = _
  rw [string, (span_append hbody hrest).1]

theorem scan_stray {c : Char} (cs : List Char) (h : isStray c) :
    scan (c :: cs) = ⟨.illegal, [c], 1⟩ := by
  simp only [isStray, Bool.and_eq_true, Bool.not_eq_true'] at h
  obtain ⟨⟨⟨-, hm⟩, hl⟩, hd⟩ := h
  have hc : c ∉ ['(', ')', ',', '+', '-', '"'] := by simpa using hm
  have hq : c ≠ '"' := by rintro rfl; exact hc (by simp)
  simp [scan, punctuation?_eq_none hc, hq, hl, hd]

theorem word_of_keyword {w : List Char} {k : Keyword} (h : k.word = String.ofList w) :
    word w = ⟨.keyword k, [], w.length⟩ := by
  simp [word, Keyword.ofWord?_eq_some_iff.mpr h]

theorem word_of_ident {w : List Char} (h : ∀ k : Keyword, k.word ≠ String.ofList w) :
    word w = ⟨.ident, w, w.length⟩ := by
  simp [word, Keyword.ofWord?_eq_none_iff.mpr h]

theorem number_float (whole ds : List Char) {d : Char} (h : isDigit d) :
    number whole ('.' :: d :: ds) =
      ⟨.float, whole ++ '.' :: d :: ds.takeWhile isDigit,
        (whole ++ '.' :: d :: ds.takeWhile isDigit).length⟩ := by
  simp [number, h]; omega

theorem number_int (whole : List Char) {after : List Char}
    (h : ∀ d ds, after = '.' :: d :: ds → isDigit d = false) :
    number whole after = ⟨.int, whole, whole.length⟩ := by
  unfold number
  split
  · rename_i d ds; simp [h d ds rfl]
  · rfl

end Lexeme

namespace Token

section Lexemes

variable (l : String) (p : Int)

@[simp] theorem lexeme_illegal : (⟨.illegal, l, p⟩ : Token).lexeme = l.toList := by simp [lexeme]

@[simp] theorem lexeme_ident : (⟨.ident, l, p⟩ : Token).lexeme = l.toList := by
  simp [lexeme, text]

@[simp] theorem lexeme_int : (⟨.int, l, p⟩ : Token).lexeme = l.toList := by simp [lexeme, text]

@[simp] theorem lexeme_float : (⟨.float, l, p⟩ : Token).lexeme = l.toList := by
  simp [lexeme, text]

@[simp] theorem lexeme_str : (⟨.str, l, p⟩ : Token).lexeme = '"' :: (l.toList ++ ['"']) := by
  simp [lexeme, text, String.toList_append]

@[simp] theorem lexeme_keyword (k : Keyword) :
    (⟨.keyword k, l, p⟩ : Token).lexeme = k.word.toList := by
  simp [lexeme, text]

@[simp] theorem lexeme_lparen : (⟨.lparen, l, p⟩ : Token).lexeme = ['('] := by simp [lexeme, text]

@[simp] theorem lexeme_rparen : (⟨.rparen, l, p⟩ : Token).lexeme = [')'] := by simp [lexeme, text]

@[simp] theorem lexeme_comma : (⟨.comma, l, p⟩ : Token).lexeme = [','] := by simp [lexeme, text]

@[simp] theorem lexeme_plus : (⟨.plus, l, p⟩ : Token).lexeme = ['+'] := by simp [lexeme, text]

@[simp] theorem lexeme_minus : (⟨.minus, l, p⟩ : Token).lexeme = ['-'] := by simp [lexeme, text]

end Lexemes

theorem scan_lexeme {t : Token} {rest : List Char} (ht : t.Lexical) (hl : t.Longest rest) :
    Lexeme.scan (t.lexeme ++ rest) = ⟨t.kind, t.literal.toList, t.lexeme.length⟩ := by
  rcases t with ⟨kind, literal, pos⟩
  cases kind with
  | illegal =>
    obtain ⟨c, hc, hs⟩ := ht
    rw [lexeme_illegal, show literal.toList = [c] from hc, List.singleton_append,
      Lexeme.scan_stray rest hs]
    rfl
  | eof => exact ht.elim
  | ident =>
    rw [lexeme_ident, Lexeme.scan_word ht.1 hl,
      Lexeme.word_of_ident (by rw [String.ofList_toList]; exact ht.2)]
  | int =>
    rw [lexeme_int, Lexeme.scan_numeral ht hl.1, Lexeme.number_int _ hl.2]
  | float =>
    obtain ⟨i, f, hlit, hi, hf⟩ := ht
    have hdot : ∀ x ∈ ('.' :: (f ++ rest)).head?, isDigit x = false := by
      intro x hx; simp at hx; subst hx; decide
    rw [lexeme_float, show literal.toList = i ++ '.' :: f from hlit, List.append_assoc,
      List.cons_append, Lexeme.scan_numeral hi hdot]
    cases f with
    | nil => cases hf
    | cons d f =>
      have hf' : isDigit d ∧ ∀ x ∈ f, isDigit x := by simpa [isNumeral] using hf
      rw [List.cons_append, Lexeme.number_float _ _ hf'.1, (span_append hf'.2 hl).1]
  | str =>
    rw [lexeme_str, List.cons_append, List.append_assoc, Lexeme.scan_string ht (by simp)]
    simp
  | keyword k =>
    rw [lexeme_keyword, Lexeme.scan_word (Keyword.isWord_word k) hl,
      Lexeme.word_of_keyword (k := k) (by rw [String.ofList_toList]), show literal = "" from ht]
    simp
  | plus | minus | comma | lparen | rparen =>
    rw [show literal = "" from ht]
    simp [Lexeme.scan, Lexeme.punctuation?]

/-- The token that leads a text is what the scanner finds there. -/
theorem Leads.scan_eq {t : Token} {shape rest : List Char} (h : t.Leads shape rest) :
    ∃ n, Lexeme.scan (shape ++ rest) = ⟨t.kind, t.literal.toList, n⟩ ∧
      (shape ++ rest).take n = shape ∧ (shape ++ rest).drop n = rest := by
  cases h with
  | closed ht hl =>
    exact ⟨_, scan_lexeme ht hl, List.take_left' rfl, List.drop_left' rfl⟩
  | unclosed hk hq =>
    refine ⟨t.literal.toList.length + 2, ?_, ?_, ?_⟩
    · rw [hk, List.cons_append, Lexeme.scan_string hq (by simp)]
    · rw [List.append_nil, List.take_of_length_le (by simp)]
    · simp

/-! ## Every text is led by a token -/

theorem Leads.of_lexeme {t : Token} {shape rest : List Char} (hs : t.lexeme = shape)
    (ht : t.Lexical) (hl : t.Longest rest) : t.Leads shape rest :=
  hs ▸ .closed ht hl

theorem leads_word {w rest : List Char} (pos : Int) (hw : isWord w)
    (hr : ∀ c ∈ rest.head?, isWordChar c = false) :
    ∃ t : Token, t.pos = pos ∧ t.Leads w rest := by
  cases hk : Keyword.ofWord? (String.ofList w) with
  | some k =>
    have hword := Keyword.ofWord?_eq_some_iff.mp hk
    exact ⟨⟨.keyword k, "", pos⟩, rfl, .of_lexeme (by simp [hword]) (by simp [Lexical]) hr⟩
  | none =>
    have hword := Keyword.ofWord?_eq_none_iff.mp hk
    exact ⟨⟨.ident, String.ofList w, pos⟩, rfl,
      .of_lexeme (by simp) (by simpa [Lexical, hw] using hword) hr⟩

/-- What starts with a digit is a number, with a fraction where a digit follows the point. -/
theorem leads_number {c : Char} (cs : List Char) (pos : Int) (h : isDigit c) :
    ∃ (t : Token) (shape rest : List Char),
      c :: cs = shape ++ rest ∧ t.pos = pos ∧ t.Leads shape rest := by
  have hnumeral : ∀ (d : Char) (ds : List Char), isDigit d →
      isNumeral (d :: ds.takeWhile isDigit) := by
    intro d ds hd
    simp [isNumeral, hd]
  let whole := c :: cs.takeWhile isDigit
  have hsplit : c :: cs = whole ++ cs.dropWhile isDigit := by simp [whole]
  by_cases hp : ∃ d ds, cs.dropWhile isDigit = '.' :: d :: ds ∧ isDigit d
  · obtain ⟨d, ds, hrest, hd⟩ := hp
    let part := d :: ds.takeWhile isDigit
    refine ⟨⟨.float, String.ofList (whole ++ '.' :: part), pos⟩, whole ++ '.' :: part,
      ds.dropWhile isDigit, ?_, rfl, .of_lexeme (by simp) ?_ (head?_dropWhile _ _)⟩
    · rw [hsplit, hrest]
      simp [part]
    · exact ⟨whole, part, by simp, hnumeral c cs h, hnumeral d ds hd⟩
  · refine ⟨⟨.int, String.ofList whole, pos⟩, whole, _, hsplit, rfl,
      .of_lexeme (by simp) (by simpa [Lexical] using hnumeral c cs h) ⟨head?_dropWhile _ _, ?_⟩⟩
    intro d ds hrest
    cases hd : isDigit d with
    | false => rfl
    | true => exact absurd ⟨d, ds, hrest, hd⟩ hp

/-- What starts with a quote is a string, up to the next quote or to the end. -/
theorem leads_quote (cs : List Char) (pos : Int) :
    ∃ (t : Token) (shape rest : List Char),
      '"' :: cs = shape ++ rest ∧ t.pos = pos ∧ t.Leads shape rest := by
  let body := cs.takeWhile (· != '"')
  let t : Token := ⟨.str, String.ofList body, pos⟩
  have hq : '"' ∉ t.literal.toList := by
    intro hc
    have hmem : '"' ∈ cs.takeWhile (· != '"') := by simpa [t, body] using hc
    exact bne_iff_ne.mp (all_of_takeWhile (· != '"') cs _ hmem) rfl
  have hsplit : cs = body ++ cs.dropWhile (· != '"') := by simp [body]
  cases hrest : cs.dropWhile (· != '"') with
  | nil =>
    refine ⟨t, '"' :: t.literal.toList, [], ?_, rfl, .unclosed rfl hq⟩
    rw [hsplit, hrest]
    simp [t]
  | cons x rest =>
    have hx : x = '"' := by
      simpa using head?_dropWhile (· != '"') cs x (by rw [hrest]; rfl)
    refine ⟨t, t.lexeme, rest, ?_, rfl, .closed hq trivial⟩
    rw [hsplit, hrest, hx]
    simp [t]

theorem leads_sign {c : Char} (cs : List Char) (pos : Int) (h : c ∈ ['(', ')', ',', '+', '-']) :
    ∃ t : Token, t.pos = pos ∧ t.Leads [c] cs := by
  simp only [List.mem_cons, List.not_mem_nil, or_false] at h
  rcases h with rfl | rfl | rfl | rfl | rfl
  · exact ⟨⟨.lparen, "", pos⟩, rfl, .of_lexeme (by simp) (by simp [Lexical]) trivial⟩
  · exact ⟨⟨.rparen, "", pos⟩, rfl, .of_lexeme (by simp) (by simp [Lexical]) trivial⟩
  · exact ⟨⟨.comma, "", pos⟩, rfl, .of_lexeme (by simp) (by simp [Lexical]) trivial⟩
  · exact ⟨⟨.plus, "", pos⟩, rfl, .of_lexeme (by simp) (by simp [Lexical]) trivial⟩
  · exact ⟨⟨.minus, "", pos⟩, rfl, .of_lexeme (by simp) (by simp [Lexical]) trivial⟩

/-- Whatever stands at the front of a text, a token leads it. -/
theorem exists_leads {c : Char} (cs : List Char) (pos : Int) (hb : isBlank c = false) :
    ∃ (t : Token) (shape rest : List Char),
      c :: cs = shape ++ rest ∧ t.pos = pos ∧ t.Leads shape rest := by
  by_cases hs : c ∈ ['(', ')', ',', '+', '-']
  · obtain ⟨t, hp, h⟩ := leads_sign cs pos hs
    exact ⟨t, [c], cs, rfl, hp, h⟩
  by_cases hq : c = '"'
  · subst hq
    exact leads_quote cs pos
  by_cases hl : isLetter c
  · have hw : isWord (c :: cs.takeWhile isWordChar) := by simp [isWord, hl]
    obtain ⟨t, hp, h⟩ := leads_word pos hw (head?_dropWhile isWordChar cs)
    exact ⟨t, _, _, by simp, hp, h⟩
  by_cases hd : isDigit c
  · exact leads_number cs pos hd
  · refine ⟨⟨.illegal, String.ofList [c], pos⟩, [c], cs, rfl, rfl, .of_lexeme (by simp) ?_ trivial⟩
    simp only [List.mem_cons, List.not_mem_nil, or_false, not_or] at hs
    exact ⟨c, by simp, by simp [isStray, hb, hl, hd, hq, hs]⟩

end Token

end Criteria
