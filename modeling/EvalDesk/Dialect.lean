import EvalDesk.Path

/-!
# Dialects

The dialect of a source is told by the suffix of its path. A source of no known dialect is not
taken from the command line, and is labelled like the main dialect where it is shown.
-/
namespace EvalDesk

/-- A dialect of the language. -/
inductive Dialect where
  /-- The main dialect. -/
  | clojure
  /-- The dialect that is compiled to a script. -/
  | clojureScript
  /-- The common part of the two. -/
  | clojureCommon
  /-- Data only. -/
  | edn
  /-- None of them. -/
  | unknown
  deriving DecidableEq, Repr

namespace Dialect

/-- The dialect of a suffix. -/
def ofSuffix (suffix : String) : Dialect :=
  if suffix = ".clj" then .clojure
  else if suffix = ".cljs" then .clojureScript
  else if suffix = ".cljc" then .clojureCommon
  else if suffix = ".edn" then .edn
  else .unknown

/-- The dialect of the source at a path. -/
def ofPath (path : String) : Dialect := ofSuffix (Path.ofText path).suffix

/-- The short name of a dialect. -/
def word : Dialect → String
  | .clojure => "clj"
  | .clojureScript => "cljs"
  | .clojureCommon => "cljc"
  | .edn => "edn"
  | .unknown => "unknown"

/-- The label of a dialect where it is shown. -/
def label : Dialect → String
  | .clojureScript => "CLJS"
  | .clojureCommon => "CLJC"
  | .edn => "EDN"
  | .clojure | .unknown => "CLJ"

/-- Sources of the dialect can be sent. -/
def isSupported (dialect : Dialect) : Bool := dialect ≠ .unknown

end Dialect
end EvalDesk
