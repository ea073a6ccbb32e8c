/-!
# Completion policies

How many times a step may or must run. A policy tells the least number of runs, and the largest one
where the repetitions are limited. For a step that does not repeat the limit plays no part.
-/

namespace Stepwise

/-- How many times a step may or must run. -/
inductive Completion where
  | once
  | optional
  | zeroOrMore
  | atLeastOnce
  deriving DecidableEq, Repr

namespace Completion

/-- All policies, in the order in which messages list them. -/
def all : List Completion := [once, optional, zeroOrMore, atLeastOnce]

/-- The spelling of a policy in documents. -/
def spelling : Completion → String
  | once => "Once"
  | optional => "Optional"
  | zeroOrMore => "ZeroOrMore"
  | atLeastOnce => "AtLeastOnce"

/-- The name of a policy as a constant. -/
def constant : Completion → String
  | once => "ONCE"
  | optional => "OPTIONAL"
  | zeroOrMore => "ZERO_OR_MORE"
  | atLeastOnce => "AT_LEAST_ONCE"

/-- The policy with a spelling, which must match in every letter. -/
def ofSpelling? (s : String) : Option Completion := all.find? fun c => c.spelling == s

theorem ofSpelling?_spelling (c : Completion) : ofSpelling? c.spelling = some c := by
  cases c <;> decide

theorem spelling_of_ofSpelling? {s : String} {c : Completion} (h : ofSpelling? s = some c) :
    c.spelling = s := by
  simpa using List.find?_some h

/-- Whether the step may be left without any run. -/
def canSkip : Completion → Bool
  | optional | zeroOrMore => true
  | once | atLeastOnce => false

/-- Whether the step may run more than once. -/
def isRepeatable : Completion → Bool
  | zeroOrMore | atLeastOnce => true
  | once | optional => false

/-- A step that may be skipped starts with a question to the user. -/
def requiresStartingMessage (c : Completion) : Bool := c.canSkip

/-- Only a step that repeats hands variables from one run to the next. -/
def allowsPassthrough (c : Completion) : Bool := c.isRepeatable

/-- The least number of runs that satisfies the policy. -/
def leastRuns (c : Completion) : Int := if c.canSkip then 0 else 1

/-- The number of runs that are allowed when at most `limit` repetitions are. -/
def mostRuns (c : Completion) (limit : Int) : Int := if c.isRepeatable then limit else 1

end Completion

end Stepwise
