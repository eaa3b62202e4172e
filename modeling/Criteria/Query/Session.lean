import Criteria.Query.Parser

/-!
# Criteria.Query.Session

Reading step by step: a session keeps its window between operations, also after one that failed, so
that the next operation goes on from there.
-/

namespace Criteria

/-- A reader that is used several times. Errors are handed back one by one; none is collected. -/
structure Session where
  window : Window
  errors : List ParseError := []

namespace Session

/-- What a session can be asked to do. -/
inductive Operation where
  | query
  | filter
  | sort
  | list
  | identifier
  | integer
  | float
  | string
  | boolean
  | hasValue
  | next
  deriving DecidableEq, Repr

/-- What it replies. -/
inductive Reply where
  | query (q : Query)
  | queries (qs : List Query)
  | value (v : Value)
  | flag (b : Bool)
  | moved
  | failed (e : ParseError)

/-- A session on the tokens from a cursor on. -/
def ofCursor (c : Cursor) : Session := { window := Window.ofCursor c }

def Reply.of {α : Type} (f : α → Reply) : Except ParseError α → Reply
  | .ok a => f a
  | .error e => .failed e

/-- Carries out one operation. Only queries, filters, lists and `next` move the window. -/
def perform (s : Session) : Operation → Reply × Session
  | .query =>
    let r := parseQuery s.window
    (.of .query r.result, { s with window := r.window })
  | .filter =>
    let r := parseFilter s.window
    (.of .query r.result, { s with window := r.window })
  | .list =>
    let r := parseList s.window
    (.of .queries r.result, { s with window := r.window })
  | .sort => (.failed (.unsupported Reserved.sort.word), s)
  | .identifier => (.of (fun path => .value (.identifier path)) s.window.identifier, s)
  | .integer => (.of .value s.window.integer, s)
  | .float => (.of .value s.window.float, s)
  | .string => (.of .value s.window.string, s)
  | .boolean => (.of .value s.window.boolean, s)
  | .hasValue => (.flag s.window.hasValue, s)
  | .next => (.moved, { s with window := s.window.advance })

/-- Carries out operations one after the other and lists the replies, each with the session after
it. -/
def run (s : Session) : List Operation → List (Reply × Session)
  | [] => []
  | op :: ops => s.perform op :: run (s.perform op).2 ops

end Session
end Criteria
