import IconForge.Service.Call
import IconForge.Workspace.Build

/-!
# Answering requests

There are two places: one tells that the service is up, the other one builds. Each takes one method. A place is also reached with slashes
behind it.
-/

namespace IconForge.Service

open Json

/-- A place of the service. -/
inductive Place where
  | health
  | build
  deriving Repr, DecidableEq

/-- The path and the method of each place. -/
def places : List (String × String × Place) := [("/health", "GET", .health), ("/build", "POST", .build)]

/-- The response when something goes wrong that is not expected. -/
def broken : Response := ⟨500, .text "Internal Server Error"⟩

/-- The settings of a build call. -/
def callSettings (c : BuildCall) : Except SettingsError Settings := do
  let s ← (Workspace.plainSettings (Path.ofString c.inputDir) (Path.ofString c.outputDir) c.typescript).check
  let override : Override := { pattern? := c.pattern?, naming? := c.naming? }
  override.apply s

/-- The response to a finished build. -/
def built (r : Build.Result) : Response :=
  ⟨200, .json (.object [("status", .string "ok"), ("components", .array (r.components.map fun p => .string p.toString)),
    ("index_path", .string r.index.toString)])⟩

/-- Builds what a body asks for. -/
def build (body : String) (w : Workspace) : Response × Workspace :=
  match w.readers.call body with
  | .error response => (response, w)
  | .ok call =>
    match callSettings call with
    | .error e => (detail 400 (.string e.message), w)
    | .ok s =>
      match w.build s with
      | (.ok r, w) => (built r, w)
      | (.error (.build e), w) => (detail 422 (.string e.message), w)
      | (.error (.unexpected _), w) => (broken, w)

/-- A text with the bytes that are written by number behind percent signs. -/
def unquoted : List Char → List UInt8
  | '%' :: a :: b :: rest =>
    match Text.hexDigit? a, Text.hexDigit? b with
    | some x, some y => UInt8.ofNat (x * 16 + y) :: unquoted rest
    | _, _ => Text.Utf8.encode "%" ++ unquoted (a :: b :: rest)
  | c :: rest => Text.Utf8.encode (String.singleton c) ++ unquoted rest
  | [] => []

/-- The path of a request's target, without what is asked of it and without a fragment. -/
def targetPath (target : String) : String :=
  let path := Text.Utf8.decodeLossy (unquoted (target.toList.takeWhile fun c => c != '?' && c != '#'))
  if path.startsWith "/" then path else "/" ++ path

/-- A path without the slashes at its end. -/
def withoutSlashes (path : String) : String := String.ofList (path.toList.reverse.dropWhile (· = '/')).reverse

/-- The method and the place of a path. -/
def find? (path : String) : Option (String × Place) := (places.lookup path).or (places.lookup (withoutSlashes path))

/-- The response to a request, and what it does. -/
def respond (method path body : String) (w : Workspace) : Response × Workspace :=
  match find? path with
  | none => (detail 404 (.string "Not Found"), w)
  | some (expected, place) =>
    if method ≠ expected then (detail 405 (.string "Method Not Allowed"), w)
    else match place with
      | .health => (⟨200, .json (.object [("status", .string "ok")])⟩, w)
      | .build => build body w

/-- The response to a request as it is sent: to a request for the head alone it has no body. Methods are told in letters of either case. -/
def answer (method target body : String) (w : Workspace) : Response × Workspace :=
  let method := method.toUpper
  let (response, w) := respond method (targetPath target) body w
  (if method = "HEAD" then { response with body := .text "" } else response, w)

end IconForge.Service
