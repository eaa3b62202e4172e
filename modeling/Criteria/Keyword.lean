/-!
# Criteria.Keyword

The words with a meaning of their own: truth values, comparators, combinators, and words that are
kept for queries still to come.
-/

namespace Criteria

/-- The comparison that a filter makes. -/
inductive Comparator where
  | eq
  | ne
  | le
  | ge
  | lt
  | gt
  deriving DecidableEq, Repr

namespace Comparator

def all : List Comparator := [.eq, .ne, .le, .ge, .lt, .gt]

def word : Comparator → String
  | .eq => "eq"
  | .ne => "ne"
  | .le => "le"
  | .ge => "ge"
  | .lt => "lt"
  | .gt => "gt"

def symbol : Comparator → String
  | .eq => "="
  | .ne => "!="
  | .le => "<="
  | .ge => ">="
  | .lt => "<"
  | .gt => ">"

/-- The name in token listings and structure texts. -/
def name : Comparator → String
  | .eq => "EQ"
  | .ne => "NOT_EQ"
  | .le => "LE"
  | .ge => "GE"
  | .lt => "LT"
  | .gt => "GT"

def ofWord? (w : String) : Option Comparator :=
  all.find? fun c => c.word == w

end Comparator

/-- How the queries of a list are combined. -/
inductive Combinator where
  | and
  | or
  deriving DecidableEq, Repr

namespace Combinator

def all : List Combinator := [.and, .or]

def word : Combinator → String
  | .and => "and"
  | .or => "or"

/-- The name in token listings. -/
def name : Combinator → String
  | .and => "AND"
  | .or => "OR"

end Combinator

/-- Words that are recognised but that no query may use yet. -/
inductive Reserved where
  | sort
  | select
  | values
  | aggregate
  | distinct
  | member
  | out
  | contains
  | excludes
  | limit
  deriving DecidableEq, Repr

namespace Reserved

def all : List Reserved :=
  [.sort, .select, .values, .aggregate, .distinct, .member, .out, .contains, .excludes, .limit]

def word : Reserved → String
  | .sort => "sort"
  | .select => "select"
  | .values => "values"
  | .aggregate => "aggregate"
  | .distinct => "distinct"
  | .member => "in"
  | .out => "out"
  | .contains => "contains"
  | .excludes => "excludes"
  | .limit => "limit"

/-- The name in token listings. -/
def name : Reserved → String
  | .sort => "SORT"
  | .select => "SELECT"
  | .values => "VALUES"
  | .aggregate => "AGGREGATE"
  | .distinct => "DISTINCT"
  | .member => "IN"
  | .out => "OUT"
  | .contains => "CONTAINS"
  | .excludes => "EXCLUDES"
  | .limit => "LIMIT"

end Reserved

/-- A word that is not an identifier. -/
inductive Keyword where
  | truth (b : Bool)
  | comparator (c : Comparator)
  | combinator (c : Combinator)
  | reserved (r : Reserved)
  deriving DecidableEq, Repr

namespace Keyword

def all : List Keyword :=
  [.truth true, .truth false] ++ Comparator.all.map .comparator ++
    Combinator.all.map .combinator ++ Reserved.all.map .reserved

def word : Keyword → String
  | .truth true => "true"
  | .truth false => "false"
  | .comparator c => c.word
  | .combinator c => c.word
  | .reserved r => r.word

def name : Keyword → String
  | .truth true => "TRUE"
  | .truth false => "FALSE"
  | .comparator c => c.name
  | .combinator c => c.name
  | .reserved r => r.name

/-- The keyword that a word is, if it is one; upper and lower case differ. -/
def ofWord? (w : String) : Option Keyword :=
  all.find? fun k => k.word == w

end Keyword
end Criteria
