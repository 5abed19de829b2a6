import IconForge.Text.Cut
import IconForge.Text.Diagnostic
import IconForge.Text.Digit

/-!
# Words of a command line

A program knows options by their names. A word of a command line is an option, a word that stands for itself, or the separator behind
which all words stand for themselves. An option may be shortened as long as no other one starts the same way, and its argument may
follow behind an equals sign.
-/

namespace IconForge.CommandLine

open Text

/-- An option of a program. -/
structure Opt (κ : Type) where
  key : κ
  /-- Its names, the short one first. -/
  names : List String
  /-- What is wrong with an argument, if the option takes one. -/
  argument? : Option (String → Option String)

/-- What a program accepts. -/
structure Grammar (κ : Type) where
  program : String
  /-- How the program is called, in one line. -/
  usage : String
  options : List (Opt κ)
  /-- The options that may not stand beside an option. -/
  rivals : κ → List κ
  /-- The option that asks for help. -/
  help : κ

/-- Why a program does not run. -/
inductive Stop where
  /-- The words are refused. -/
  | refused (usage program message : String)
  /-- Help was asked for. -/
  | help (usage : String)
  deriving Repr, DecidableEq

variable {κ : Type}

/-- The name of an option in messages. -/
def Opt.title (o : Opt κ) : String := joined "/" o.names

namespace Grammar

/-- Refuses. -/
def refuse (g : Grammar κ) (message : String) : Stop := .refused g.usage g.program message

/-- Refuses because of an option. -/
def refuseAt (g : Grammar κ) (o : Opt κ) (message : String) : Stop := g.refuse ("argument " ++ o.title ++ ": " ++ message)

/-- All names, with the options that have them. -/
def names (g : Grammar κ) : List (String × Opt κ) := g.options.flatMap fun o => o.names.map fun n => (n, o)

/-- The option of a name. -/
def find? (g : Grammar κ) (name : String) : Option (Opt κ) := g.names.lookup name

end Grammar

/-- What follows the name of an option in the same word, and whether an equals sign stands between. -/
structure Tail where
  equals : Bool
  text : String
  deriving Repr, DecidableEq

/-- An option in a word: the name it was meant by, and what follows it. -/
structure Mention (κ : Type) where
  option : Opt κ
  name : String
  tail? : Option Tail

/-- What a word is. -/
inductive Role (κ : Type) where
  | plain
  | separator
  | option (m : Mention κ)
  /-- It has the form of an option, but there is none. -/
  | unknown

/-- A word is a negative number. -/
def isNegativeNumber (s : List Char) : Bool :=
  match s with
  | '-' :: digits =>
    let whole := digits.takeWhile isDecimalDigit
    match digits.dropWhile isDecimalDigit with
    | [] => !whole.isEmpty
    | '.' :: fraction => !fraction.isEmpty && fraction.all isDecimalDigit
    | _ => false
  | _ => false

/-- A word before and behind its first equals sign. -/
def splitEquals (word : String) : Option (String × String) :=
  match word.toList.dropWhile (· != '=') with
  | _ :: behind => some (String.ofList (word.toList.takeWhile (· != '=')), String.ofList behind)
  | [] => none

namespace Grammar

/-- The options that a word may stand for by the start of their names. Behind a single hyphen more may follow the first letter. -/
def candidates (g : Grammar κ) (word : String) : List (Mention κ) :=
  if word.startsWith "--" then
    let (start, tail?) := match splitEquals word with
      | some (start, rest) => (start, some (Tail.mk true rest))
      | none => (word, none)
    (g.names.filter fun n => n.1.startsWith start).map fun n => ⟨n.2, n.1, tail?⟩
  else
    let letter := String.ofList (word.toList.take 2)
    g.names.filterMap fun n =>
      if n.1 = letter then some ⟨n.2, n.1, some ⟨false, String.ofList (word.toList.drop 2)⟩⟩
      else if n.1.startsWith word then some ⟨n.2, n.1, none⟩
      else none

/-- What a word that starts with a hyphen is, if no option has just that name. -/
def inexactRole (g : Grammar κ) (word : String) : Except Stop (Role κ) :=
  match g.candidates word with
  | [m] => .ok (.option m)
  | [] => .ok (if isNegativeNumber word.toList || word.toList.contains ' ' then .plain else .unknown)
  | several =>
    .error (g.refuse ("ambiguous option: " ++ word ++ " could match " ++ joined ", " (several.map (·.name))))

/-- What a word in front of the separator is. -/
def roleOf (g : Grammar κ) (word : String) : Except Stop (Role κ) :=
  match word.toList with
  | '-' :: _ :: _ =>
    match g.find? word with
    | some o => .ok (.option ⟨o, word, none⟩)
    | none =>
      match splitEquals word with
      | some (name, rest) =>
        match g.find? name with
        | some o => .ok (.option ⟨o, name, some ⟨true, rest⟩⟩)
        | none => g.inexactRole word
      | none => g.inexactRole word
  | _ => .ok .plain

/-- Words with what they are. Behind the separator all of them stand for themselves. -/
def roles (g : Grammar κ) : List String → Except Stop (List (String × Role κ))
  | [] => .ok []
  | word :: rest =>
    if word = "--" then .ok ((word, .separator) :: rest.map fun w => (w, .plain))
    else do
      let role ← g.roleOf word
      pure ((word, role) :: (← g.roles rest))

end Grammar

/-- A word without a hyphen at its front stands for itself. -/
theorem roleOf_plain (g : Grammar κ) (word : String) (h : ∀ rest, word.toList ≠ '-' :: rest) : g.roleOf word = .ok .plain := by
  unfold Grammar.roleOf
  split
  · rename_i c rest heq
    exact absurd heq (h _)
  · rfl

end IconForge.CommandLine
