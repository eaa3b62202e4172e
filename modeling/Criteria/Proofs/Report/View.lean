import Mathlib
import Criteria.Proofs.Report.Dumped
import Criteria.Proofs.Report.Tree

/-!
# Criteria.Proofs.Report.View

What is shown of a run: data on the output, notices on the error stream.

* `Command.dataView_query`, `Command.dataView_tokens` and `Command.dataView_version`: the data of
  every command can be shown in every format.
* `Json.at?`: the parts of an envelope that is JSON, by the names that lead to them.
* `Notice`: one thing said on the error stream. `Notice.isEssential` tells those that stay when the
  rest is to be quiet.
* `emit_json` and `emit_refused`: what `emit` writes in JSON, and when it fails.
* `emit_data` and `emit_error`: what it writes in the other formats.
-/

namespace Criteria

theorem mapM_map_ok {α β γ ε : Type} {f : β → Except ε γ} {d : α → β} {g : α → γ}
    (h : ∀ a, f (d a) = .ok (g a)) (as : List α) : (as.map d).mapM f = .ok (as.map g) := by
  induction as with
  | nil => rfl
  | cons a as ih =>
    rw [List.map_cons, List.mapM_cons, h, ih]
    rfl

/-! ## Data -/

namespace Command

/-- A query as it is shown in the formats other than JSON. -/
def shownQuery (output : OutputFormat) (q : Query) : String :=
  match output with
  | .text => q.text ++ "\n"
  | .repr => q.structureText ++ "\n"
  | _ => q.tree.draw

theorem dataView_query (output : OutputFormat) (q : Query) :
    dataView output "parse" (queryData q) = .ok (shownQuery output q) := by
  cases output <;>
    simp [dataView, parseView, shownQuery, queryData, Json.get?, List.lookup, OutputFormat.name,
      Json.display, LabelTree.ofJson_toJson]

def shownTokens (output : OutputFormat) (ts : List Token) : String :=
  match output with
  | .text => " ".intercalate (ts.map Token.text) ++ "\n"
  | _ => Table.draw tokenColumns (ts.map fun t => [intText t.pos, t.kind.name, t.literal])

theorem dataView_tokens (output : OutputFormat) (ts : List Token) :
    dataView output "tokens" (.object [("tokens", .array (ts.map tokenData))]) =
      .ok (shownTokens output ts) := by
  have hlist : listMember (.object [("tokens", .array (ts.map tokenData))]) "tokens" =
      .ok (ts.map tokenData) := rfl
  have htexts : (ts.map tokenData).mapM (fun j => j.need "text" >>= textOf) =
      .ok (ts.map Token.text) := mapM_map_ok (fun _ => by rfl) ts
  have hrows : (ts.map tokenData).mapM tokenRow =
      .ok (ts.map fun t => [intText t.pos, t.kind.name, t.literal]) := mapM_map_ok (fun _ => by rfl) ts
  cases output <;>
    simp [-List.mapM_map, dataView, tokensView, shownTokens, hlist, htexts, hrows]

def shownVersion : String :=
  Text.onScreen version ++
    String.join (grammar.map fun e => Text.onScreen (e.1 ++ ": " ++ ", ".intercalate e.2))

theorem dataView_version (output : OutputFormat) (host : Host) :
    dataView output "version" (versionData host) = .ok shownVersion := by
  have hline : ∀ e : String × List String, grammarLine (e.1, Json.strings e.2) =
      .ok (Text.onScreen (e.1 ++ ": " ++ ", ".intercalate e.2)) := by
    intro e
    have hwords : (e.2.map Json.string).mapM textOf = .ok (e.2.map id) :=
      mapM_map_ok (fun _ => by rfl) e.2
    simp [-List.mapM_map, grammarLine, Json.strings, itemsOf, hwords]
  have hlines := mapM_map_ok hline grammar
  have hgrammar : (versionData host).get? "grammar" =
      some (.object (grammar.map fun e => (e.1, Json.strings e.2))) := rfl
  have hversion : textMember (versionData host) "version" = .ok version := rfl
  simp only [dataView, versionData] at *
  simp [versionView, shownVersion, hversion, hgrammar, hlines]

end Command

/-! ## Envelopes -/

namespace Json

/-- The value at the end of a path of names. -/
def at? : Json → List String → Option Json
  | j, [] => some j
  | j, name :: names => (j.get? name).bind fun k => k.at? names

/-- The names of the members, in their order. -/
def names : Json → List String
  | .object members => members.map Prod.fst
  | _ => []

end Json

namespace Envelope

theorem errorType_toJson (e : Envelope) :
    e.toJson.at? ["error", "type"] = e.error.map fun i => .string i.type := by
  obtain ⟨ok, command, data, warnings, figures, error⟩ := e
  cases error <;> rfl

end Envelope

/-! ## Notices -/

/-- One thing said on the error stream. -/
inductive Notice where
  | headline (type message : String)
  | hint (text : String)
  | detail (name : String) (value : Json)
  | warning (text : String)

namespace Notice

/-- What tells the kinds of notices apart on the screen. -/
def lead : Notice → String
  | headline type _ => errorTitle type ++ ": "
  | hint _ => "Hint: "
  | detail name _ => "  " ++ name ++ ": "
  | warning _ => "Warning: "

def content : Notice → String
  | headline _ message => message
  | hint h => h
  | detail _ value => value.display
  | warning w => w

def text (n : Notice) : String :=
  Text.onScreen (n.lead ++ n.content)

/-- Hints, details and warnings can be done without. -/
def isEssential : Notice → Bool
  | headline _ _ => true
  | hint _ | detail _ _ | warning _ => false

@[simp] theorem isEssential_headline (type message : String) :
    (headline type message).isEssential = true := rfl

@[simp] theorem isEssential_hint (h : String) : (hint h).isEssential = false := rfl

@[simp] theorem isEssential_detail (name : String) (value : Json) :
    (detail name value).isEssential = false := rfl

@[simp] theorem isEssential_warning (w : String) : (warning w).isEssential = false := rfl

/-- The texts one after the other. -/
def texts (ns : List Notice) : String :=
  String.join (ns.map text)

end Notice

/-- All that may be said of an error. Details are for those who ask for more. -/
def ErrorInfo.notices (verbosity : Int) (e : ErrorInfo) : List Notice :=
  .headline e.type e.message :: (e.hint.filter (!·.isEmpty)).toList.map .hint ++
    (if 1 ≤ verbosity then (e.details.getD []).map fun d => .detail d.1 d.2 else [])

/-- All that may be said of a result. JSON says it on the output. -/
def Envelope.notices (output : OutputFormat) (verbosity : Int) (e : Envelope) : List Notice :=
  if output = .json then []
  else e.error.toList.flatMap (ErrorInfo.notices verbosity) ++ e.warnings.map .warning

/-- What is said of it: all, or only the essential. -/
def Envelope.said (s : ViewSettings) (e : Envelope) : List Notice :=
  (e.notices s.output s.verbosity).filter fun n => !s.quiet || n.isEssential

section

variable {dump : Dump} {s : ViewSettings}

theorem emit_json (hs : s.output = .json) {e e' : Envelope} (hd : e.dumped dump = .ok e') :
    emit dump s e = .ok { out := e'.toJson.text ++ "\n" } := by
  simp [emit, render, hs, hd, warningsText]

theorem emit_refused (hs : s.output = .json) {e : Envelope} {reason : String}
    (hd : e.dumped dump = .error reason) : emit dump s e = .error (.refused reason) := by
  simp [emit, render, hs, hd]

end

theorem ErrorInfo.filter_notices (verbosity : Int) (e : ErrorInfo) :
    (e.notices verbosity).filter Notice.isEssential = [.headline e.type e.message] := by
  unfold notices
  split <;> simp [List.filter_cons, List.filter_map, Function.comp_def]

theorem hintText_eq (hint : Option String) :
    hintText hint = Notice.texts ((hint.filter (!·.isEmpty)).toList.map Notice.hint) := by
  cases hint with
  | none => rfl
  | some h =>
    cases hh : h.isEmpty <;>
      simp [hintText, Notice.texts, Notice.text, Notice.lead, Notice.content, hh, Option.filter]

theorem detailsText_eq (details : List (String × Json)) :
    detailsText details = Notice.texts (details.map fun d => Notice.detail d.1 d.2) := by
  simp [detailsText, Notice.texts, Notice.text, Notice.lead, Notice.content, Function.comp_def]

theorem errorText_eq (s : ViewSettings) (e : ErrorInfo) :
    errorText s (some e) = Notice.texts
      ((e.notices s.verbosity).filter fun n => !s.quiet || n.isEssential) := by
  cases hq : s.quiet with
  | true =>
    have hfilter := e.filter_notices s.verbosity
    simp only [Bool.not_true, Bool.false_or, hfilter]
    simp [errorText, hq, Notice.texts, Notice.text, Notice.lead, Notice.content]
  | false =>
    by_cases hv : 1 ≤ s.verbosity
    · simp [errorText, hq, ErrorInfo.notices, hv, hintText_eq, detailsText_eq, Notice.texts,
        Notice.text, Notice.lead, Notice.content, String.append_assoc]
    · simp [errorText, hq, ErrorInfo.notices, hv, hintText_eq, Notice.texts, Notice.text,
        Notice.lead, Notice.content]

theorem warningsText_eq {s : ViewSettings} (hs : s.output ≠ .json) (ws : List String) :
    warningsText s ws = Notice.texts
      ((ws.map Notice.warning).filter fun n => !s.quiet || n.isEssential) := by
  cases hq : s.quiet with
  | true => simp [warningsText, hq, List.filter_map, Function.comp_def, Notice.texts]
  | false =>
    simp [warningsText, hq, hs, Notice.texts, Notice.text, Notice.lead, Notice.content,
      Function.comp_def]

section

variable {s : ViewSettings} (hs : s.output ≠ .json) (dump : Dump)

include hs

theorem emit_data {e : Envelope} {out : String} (hok : e.ok) (he : e.error = none)
    (hd : dataView s.output e.command e.data = .ok out) :
    emit dump s e = .ok { out, err := Notice.texts (e.said s) } := by
  have hrender : render dump s e = .ok { out } := by
    simp [render, hok, hd]
  simp [emit, hrender, warningsText_eq hs, Envelope.said, Envelope.notices, hs, he]

theorem emit_error {e : Envelope} {i : ErrorInfo} (hok : e.ok = false) (he : e.error = some i) :
    emit dump s e = .ok { err := Notice.texts (e.said s) } := by
  have hrender : render dump s e = .ok { err := errorText s (some i) } := by
    simp [render, hok, he]
  simp [emit, hrender, warningsText_eq hs, errorText_eq, Envelope.said, Envelope.notices, hs, he,
    Notice.texts]

end

end Criteria
