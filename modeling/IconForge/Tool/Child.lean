import IconForge.Build.Run
import IconForge.Text.Blank
import IconForge.Text.Utf8

/-!
# Child processes

A tool runs as a child process: the executable is not found, or the child ends with an exit code and what it has written. Whoever runs it
in text mode sees one kind of line break.
-/

namespace IconForge.Tool

open Text Build

/-- What becomes of a child process. -/
inductive ChildRun where
  /-- There is no such executable. -/
  | missing
  | ended (code : Int) (stdout stderr : List UInt8)
  deriving Repr, DecidableEq

/-- Bytes with line feeds in the place of all line breaks, if they are a text at all. -/
def asText (bytes : List UInt8) : List UInt8 :=
  match Utf8.decode bytes with
  | .ok text => Utf8.encode (unifiedBreaks text)
  | .error _ => bytes

/-- A child as it is seen by whoever runs it in text mode. -/
def ChildRun.inTextMode : ChildRun → ChildRun
  | .missing => .missing
  | .ended code stdout stderr => .ended code (asText stdout) (asText stderr)

/-- The first of some texts that is not empty, or the last word on the matter. -/
def firstSaid (otherwise : String) : List String → String
  | [] => otherwise
  | s :: rest => if s = "" then firstSaid otherwise rest else s

/-- Bytes that a tool has written, read strictly. -/
def decodeOutput (bytes : List UInt8) : Except ToolFailure String :=
  match Utf8.decode bytes with
  | .ok text => .ok text
  | .error f => .error (.unexpected ⟨.undecodable, f.message⟩)

end IconForge.Tool
