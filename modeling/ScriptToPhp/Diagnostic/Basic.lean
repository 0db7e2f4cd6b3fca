import ScriptToPhp.Diagnostic.Message
import ScriptToPhp.Text.Source

/-!
# Faults and diagnostics

A fault is a message with its arguments at a span of the text being read. A diagnostic is a fault
with its wording filled in and its place in a file worked out.
-/

namespace ScriptToPhp

structure Fault where
  message : Message
  arguments : List String
  span : Span
deriving DecidableEq, Repr

structure Diagnostic where
  kind : ErrorKind
  code : Nat
  message : String
  location : Location
deriving DecidableEq, Repr

namespace Diagnostic

def of (message : Message) (arguments : List String) (location : Location) : Diagnostic where
  kind := message.kind
  code := message.code
  message := fillTemplate message.template arguments
  location := location

def display (d : Diagnostic) : String :=
  s!"{d.location.display}: error E{d.code}: {d.message}"

def reportCode (d : Diagnostic) : String := s!"jsphp::E{d.code}"

/-- The order of reports: by file, then by position. -/
def le (a b : Diagnostic) : Bool :=
  a.location.file < b.location.file ||
    (a.location.file == b.location.file && a.location.span.start ≤ b.location.span.start)

/-- Diagnostics in the order of reports. Those of one place keep their order. -/
def sort (ds : List Diagnostic) : List Diagnostic := ds.mergeSort le

end Diagnostic

def Fault.locate (fault : Fault) (source : Source) : Diagnostic :=
  .of fault.message fault.arguments (source.locate fault.span)

end ScriptToPhp
