/-!
# Journal

What an operation reports about itself, in order: the spans it opens, the events
it logs and the counters it raises.
-/

namespace Gatekeeper

inductive Level where
  | error
  | warn
  | info
  | debug
deriving DecidableEq, Repr

def Level.label : Level → String
  | .error => "ERROR"
  | .warn => "WARN"
  | .info => "INFO"
  | .debug => "DEBUG"

inductive Flow where
  | authenticate
  | tokenCheck
deriving DecidableEq, Repr

namespace Flow

def all : List Flow := [authenticate, tokenCheck]

def label : Flow → String
  | authenticate => "authenticate"
  | tokenCheck => "token_check"

end Flow

inductive FlowOutcome where
  | attempt
  | success
  | denied
  | failure
deriving DecidableEq, Repr

namespace FlowOutcome

def all : List FlowOutcome := [attempt, success, denied, failure]

def label : FlowOutcome → String
  | attempt => "attempt"
  | success => "success"
  | denied => "denied"
  | failure => "failure"

end FlowOutcome

inductive Lookup where
  | hit
  | miss
  | stale
deriving DecidableEq, Repr

namespace Lookup

def all : List Lookup := [hit, miss, stale]

def label : Lookup → String
  | hit => "hit"
  | miss => "miss"
  | stale => "stale"

end Lookup

inductive Counter where
  | flow (kind : Flow) (outcome : FlowOutcome)
  | lookup (result : Lookup)
deriving DecidableEq, Repr

def Counter.text : Counter → String
  | .flow kind outcome =>
    "gateway_auth_flow_total\x7bflow=" ++ kind.label ++ ",outcome=" ++ outcome.label ++ "\x7d"
  | .lookup result => "gateway_auth_token_cache_total\x7bresult=" ++ result.label ++ "\x7d"

inductive FieldValue where
  | text (s : String)
  | number (n : Int)
deriving DecidableEq, Repr

structure Event where
  level : Level
  target : String
  message : String
  fields : List (String × FieldValue)
deriving DecidableEq, Repr

inductive Observation where
  | span (flow : Flow) (stage : String)
  | event (event : Event)
  | count (counter : Counter)
deriving DecidableEq, Repr

abbrev Journal := List Observation

namespace Journal

def spanName : String := "gateway_auth.flow"

def openSpan : String := "FlowSpanGuard(..)"

def counters (journal : Journal) : List Counter :=
  journal.filterMap fun
    | .count counter => some counter
    | _ => none

def logs (journal : Journal) : Journal :=
  journal.filter fun
    | .count _ => false
    | _ => true

end Journal
end Gatekeeper
