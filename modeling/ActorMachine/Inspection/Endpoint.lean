import ActorMachine.Config
import ActorMachine.Inspection.Modules
import ActorMachine.Scheduler.Basic

/-!
# The inspection endpoint

How the requests of a debugger are answered. Two resources can be read: the modules and the
counters of the monitor. Pages of any origin may ask, and every OPTIONS request is taken for
the question whether they may.
-/

namespace ActorMachine

/-- What a debugger asks. -/
structure Query where
  /-- What to do with the resource. -/
  method : String
  /-- The resource: a path, maybe with a query behind it, or a whole address. -/
  target : String
deriving DecidableEq, Repr, Inhabited

namespace Query

/-- The path of what follows the scheme of an address. -/
private def pathAfterScheme (s : List Char) : List Char :=
  match s.dropWhile fun c => c ≠ '/' ∧ c ≠ '?' ∧ c ≠ '#' with
  | '/' :: rest => '/' :: rest
  | _ => ['/']

/-- What follows the scheme of an address, if it has one. -/
private def afterScheme? (s : List Char) : Option (List Char) :=
  match s.dropWhile (· ≠ ':') with
  | ':' :: '/' :: '/' :: rest => some rest
  | _ => none

/-- The path of the target, taken literally. -/
def path (q : Query) : String :=
  let target := q.target.toList
  -- A target that begins with a slash is a path already.
  let whole :=
    match target with
    | '/' :: _ => target
    | _ => (afterScheme? target).elim target pathAfterScheme
  String.ofList (whole.takeWhile fun c => c ≠ '?' ∧ c ≠ '#')

end Query

/-- What a debugger is answered. -/
structure Answer where
  /-- The status code. -/
  status : Nat
  /-- The headers in order. -/
  headers : List (String × String)
  /-- The body, if there is one. -/
  body : Option Document
deriving Inhabited

/-- The view of the counters. -/
def Counters.view (c : Counters) : Document :=
  .record
    [("spawned", .nat c.spawned),
      ("exited", .nat c.exited),
      ("errors", .nat c.errors),
      ("breaks", .nat c.breaks),
      ("links", .nat c.links)]

namespace Endpoint

/-- The header that lets pages of any origin read the answer. -/
def anyOrigin : String × String :=
  ("access-control-allow-origin", "*")

/-- The header that lists the methods of a resource. -/
def allowed : String × String :=
  ("allow", "GET,HEAD")

/-- The headers of an answer with a body. -/
def documentHeaders : List (String × String) :=
  [("content-type", "application/json"), ("cache-control", "no-cache"), anyOrigin]

/-- The headers that answer the question of a page whether it may ask. -/
def preflightHeaders (config : EndpointConfig) : List (String × String) :=
  [anyOrigin,
    ("access-control-allow-methods", "GET,POST,PUT,PATCH,DELETE,OPTIONS"),
    ("access-control-allow-headers", "connection,content-type"),
    ("access-control-max-age", toString config.corsMaxAge)]

/-- The document that a path leads to, together with the scheduler after reading it. -/
def resource? (path : String) (s : Scheduler) : Option (Document × Scheduler) :=
  match path with
  | "/modules" => some (s.loader.view, s)
  | "/stats" =>
    let (counters, monitor) := s.monitor.read
    some (counters.view, { s with monitor })
  | _ => none

/-- Answers a query. -/
def answer (config : EndpointConfig) (q : Query) (s : Scheduler) : Answer × Scheduler :=
  match resource? q.path s, q.method with
  | some _, "OPTIONS" =>
    ({ status := 200, headers := preflightHeaders config ++ [allowed], body := none }, s)
  | none, "OPTIONS" => ({ status := 200, headers := preflightHeaders config, body := none }, s)
  | some (document, s), "GET" =>
    ({ status := 200, headers := documentHeaders, body := some document }, s)
  | some (_, s), "HEAD" => ({ status := 200, headers := documentHeaders, body := none }, s)
  | some _, _ => ({ status := 405, headers := [anyOrigin, allowed], body := none }, s)
  | none, _ => ({ status := 404, headers := [anyOrigin], body := none }, s)

end Endpoint

end ActorMachine
