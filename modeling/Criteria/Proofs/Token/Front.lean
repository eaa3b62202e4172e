import Mathlib
import Criteria.Proofs.Token.Spacing
import Criteria.Proofs.Token.Stream

/-!
# Criteria.Proofs.Token.Front

Texts cut after a token. `Front n ts front rest` says that the tokens take the characters `front`
and leave `rest`.

* `Munch.exists_front` and `Front.munch`: a text may be cut after any of its tokens, and put
  together again.
* `Front.closed`: a closing bracket ends what was before it, whatever follows.
* `Front.moved`: the same characters hold the same tokens elsewhere in a text.
* `Front.rest_after`: a cursor that takes the tokens stops where they end.
-/

namespace Criteria

open Text

/-- The characters `front`, which byte `n` of a text starts, are blanks and a lexeme for each token
in turn. They end with the last lexeme, and `rest` follows. -/
inductive Front : Nat → List Token → List Char → List Char → Prop where
  | nil {n : Nat} {rest : List Char} : Front n [] [] rest
  | token {n : Nat} {blanks shape front rest : List Char} {t : Token} {ts : List Token}
      (hb : ∀ c ∈ blanks, isBlank c) (hl : t.Leads shape (front ++ rest))
      (hp : t.pos = (n + Utf8.length blanks : Nat))
      (h : Front (n + Utf8.length blanks + Utf8.length shape) ts front rest) :
      Front n (t :: ts) (blanks ++ (shape ++ front)) rest

theorem exists_munch (n : Nat) (cs : List Char) : ∃ ts, Munch n cs ts :=
  ⟨_, munch_drain ⟨cs, 0, n⟩⟩

theorem Munch.exists_front {n : Nat} {cs : List Char} {us vs : List Token}
    (h : Munch n cs (us ++ vs)) (hvs : vs ≠ []) :
    ∃ front rest, cs = front ++ rest ∧ Front n us front rest ∧
      Munch (n + Utf8.length front) rest vs := by
  induction us generalizing n cs with
  | nil => exact ⟨[], cs, rfl, .nil, by simpa using h⟩
  | cons t us ih =>
    rw [List.cons_append] at h
    generalize hts : us ++ vs = ts at h
    cases h with
    | done _ => exact absurd (List.append_eq_nil_iff.mp hts).2 hvs
    | token hb hl hp h =>
      subst hts
      obtain ⟨front, rest, rfl, hf, hm⟩ := ih h
      refine ⟨_, rest, ?_, .token hb hl hp hf, ?_⟩
      · simp
      · simpa [Nat.add_assoc] using hm

namespace Token

/-- What follows a closing bracket goes on with nothing before it. -/
theorem Longest.replace {t : Token} {cs rest : List Char} (rest' : List Char)
    (h : t.Longest (cs ++ ')' :: rest)) : t.Longest (cs ++ ')' :: rest') := by
  have hhead : (cs ++ ')' :: rest').head? = (cs ++ ')' :: rest).head? := by
    cases cs <;> rfl
  obtain ⟨kind, literal, pos⟩ := t
  cases kind with
  | ident | keyword k | float =>
    intro c hc
    rw [hhead] at hc
    exact h c hc
  | int =>
    refine ⟨by rw [hhead]; exact h.1, ?_⟩
    intro d ds hd
    rcases cs with _ | ⟨a, _ | ⟨b, cs⟩⟩
    · cases hd
    · cases hd; decide
    · cases hd; exact h.2 d _ rfl
  | illegal | eof | str | plus | minus | comma | lparen | rparen => trivial

theorem Leads.replace {t : Token} {shape cs rest : List Char} (rest' : List Char)
    (h : t.Leads shape (cs ++ ')' :: rest)) : t.Leads shape (cs ++ ')' :: rest') := by
  generalize hr : cs ++ ')' :: rest = r at h
  cases h with
  | closed ht hl => exact .closed ht ((hr ▸ hl).replace rest')
  | unclosed _ _ => simp at hr

theorem Leads.rparen {t : Token} {shape rest : List Char} (h : t.Leads shape rest)
    (hk : t.kind = .rparen) :
    shape = [')'] ∧ t.literal = "" ∧ ∀ rest', t.Leads [')'] rest' := by
  obtain ⟨kind, literal, pos⟩ := t
  subst hk
  cases h with
  | closed ht _ =>
    refine ⟨by simp, ht, ?_⟩
    intro rest'
    exact .of_lexeme (by simp) ht trivial
  | unclosed hk _ => cases hk

theorem Leads.moved {t : Token} {shape rest : List Char} (h : t.Leads shape rest) (p : Int) :
    Leads { t with pos := p } shape rest := by
  cases h with
  | closed ht hl => exact .closed (t := { t with pos := p }) ht hl
  | unclosed hk hq => exact .unclosed (t := { t with pos := p }) hk hq

end Token

namespace Front

variable {n : Nat} {us vs : List Token} {front rest : List Char}

theorem munch (h : Front n us front rest) (hm : Munch (n + Utf8.length front) rest vs) :
    Munch n (front ++ rest) (us ++ vs) := by
  induction h with
  | nil => simpa using hm
  | token hb hl hp _ ih =>
    have htail := ih (by simpa [Nat.add_assoc] using hm)
    simpa using Munch.token hb hl hp htail

/-- A last token that is a closing bracket stands alone at the end, and nothing that follows it
changes the tokens. -/
theorem closed {t : Token} (h : Front n (us ++ [t]) front rest) (hk : t.kind = .rparen) :
    ∃ before, front = before ++ [')'] ∧ t = ⟨.rparen, "", (n + Utf8.length before : Nat)⟩ ∧
      ∀ rest', Front n (us ++ [t]) front rest' := by
  induction us generalizing n front with
  | nil =>
    cases h with
    | @token _ blanks shape front _ _ _ hb hl hp h =>
      cases h
      obtain ⟨rfl, hlit, hleads⟩ := hl.rparen hk
      refine ⟨blanks, by simp, ?_, fun rest' => .token hb (hleads _) hp .nil⟩
      rw [← hk, ← hlit, ← hp]
  | cons u us ih =>
    cases h with
    | @token _ blanks shape front _ _ _ hb hl hp h =>
      obtain ⟨before, rfl, ht, hall⟩ := ih h
      refine ⟨blanks ++ (shape ++ before), by simp, ?_, ?_⟩
      · rw [ht]
        simp [Nat.add_assoc]
      · intro rest'
        refine .token hb ?_ hp (hall rest')
        rw [List.append_assoc] at hl ⊢
        exact hl.replace rest'

theorem moved (h : Front n us front rest) (m : Nat) :
    ∃ us', us'.map Token.content = us.map Token.content ∧ Front m us' front rest := by
  induction h generalizing m with
  | nil => exact ⟨[], rfl, .nil⟩
  | @token n blanks shape front rest t ts hb hl hp _ ih =>
    obtain ⟨us, hc, hf⟩ := ih (m + Utf8.length blanks + Utf8.length shape)
    exact ⟨_ :: us, by rw [List.map_cons, List.map_cons, hc]; rfl, .token hb (hl.moved _) rfl hf⟩

end Front

/-! ## Cursors -/

namespace Cursor

theorem length_advance (c : Cursor) (n : Nat) : (c.advance n).length = c.length := by
  simp only [length, advance, List.length_take, List.length_drop]
  omega

theorem length_after (c : Cursor) (n : Nat) : (c.after n).length = c.length := by
  induction n generalizing c with
  | zero => rfl
  | succ n ih => rw [after, ih, next, length_advance, skipBlanks, length_advance]

end Cursor

theorem Front.rest_after {us : List Token} {front rest : List Char} {c : Cursor}
    (h : Front c.position us front rest) (hc : c.rest = front ++ rest) :
    (c.after us.length).rest = rest := by
  induction us generalizing c front with
  | nil =>
    cases h
    exact hc
  | cons t us ih =>
    cases h with
    | token hb hl hp h =>
      rw [List.append_assoc, List.append_assoc] at hc
      obtain ⟨-, hrest, hpos⟩ := Cursor.next_leads hc hb hl hp
      rw [← hpos] at h
      exact ih h hrest

end Criteria
