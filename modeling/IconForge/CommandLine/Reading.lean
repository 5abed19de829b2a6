import IconForge.CommandLine.Grammar

/-!
# Reading a command line

Words are taken from left to right: options with their arguments, and between them the words that stand for themselves. Those fill the
places of the program, all at once where the first of them stands; what finds no place is left over.
-/

namespace IconForge.CommandLine

open Text

variable {κ : Type} [DecidableEq κ]

/-- What the words that stand for themselves are for. -/
inductive Places where
  /-- So many places, which may stay empty. -/
  | optional (count : Nat)
  /-- A command, which takes all words behind it. -/
  | command
  deriving Repr, DecidableEq

/-- What has been read. -/
structure Reading (κ : Type) where
  /-- The options in order, with their arguments. -/
  given : List (κ × Option String)
  /-- What fills the places. -/
  filled : List (Option String)
  /-- The command with the words behind it. -/
  command? : Option (List String)
  leftOver : List String
  /-- The places that have not been reached yet. -/
  places? : Option Places

namespace Reading

/-- The last argument of an option. -/
def last? (r : Reading κ) (key : κ) : Option String := ((r.given.filter (·.1 = key)).getLast?).bind (·.2)

/-- An option has been given. -/
def has (r : Reading κ) (key : κ) : Bool := r.given.any (·.1 = key)

/-- What a place is filled with. -/
def place? (r : Reading κ) (i : Nat) : Option String := (r.filled[i]?).join

end Reading

/-- Takes an option with its argument: that must be accepted, and no rival may have been given. -/
def take (g : Grammar κ) (r : Reading κ) (o : Opt κ) (argument? : Option String) : Except Stop (Reading κ) := do
  match o.argument?, argument? with
  | some check, some argument =>
    match check argument with
    | some problem => throw (g.refuseAt o problem)
    | none => pure ()
  | _, _ => pure ()
  match g.options.find? fun rival => (g.rivals o.key).contains rival.key && r.has rival.key with
  | some rival => throw (g.refuseAt o ("not allowed with argument " ++ rival.title))
  | none => pure ()
  if o.key = g.help then throw (.help g.usage)
  pure { r with given := r.given ++ [(o.key, argument?)] }

/-- The options of one word. -/
structure Bundle (κ : Type) where
  /-- Options that are complete, in order. -/
  complete : List (Opt κ × Option String)
  /-- The last option, if nothing follows it in the word. -/
  last? : Option (Opt κ)
  /-- Letters that no option has. -/
  leftOver : List String

/-- The options that an option and the letters behind it name. Letters behind an option that takes an argument are the argument; behind
another one they are options of their own, unless an equals sign or a hyphen comes first. -/
def spread (g : Grammar κ) (o : Opt κ) (joined : Bool) : List Char → Except Stop (Bundle κ)
  | [] =>
    if o.argument?.isSome then .ok ⟨[(o, some "")], none, []⟩
    else .error (g.refuseAt o ("ignored explicit argument " ++ shown ""))
  | c :: rest =>
    let text := String.ofList (c :: rest)
    if o.argument?.isSome then .ok ⟨[(o, some text)], none, []⟩
    else if joined || c = '-' then .error (g.refuseAt o ("ignored explicit argument " ++ shown text))
    else match g.find? (String.ofList ['-', c]) with
      | none => .ok ⟨[(o, none)], none, ["-" ++ text]⟩
      | some next =>
        match rest with
        | [] => .ok ⟨[(o, none)], some next, []⟩
        | '=' :: rest => (spread g next true rest).map fun b => { b with complete := (o, none) :: b.complete }
        | rest => (spread g next false rest).map fun b => { b with complete := (o, none) :: b.complete }

/-- The options that a mention names. -/
def bundle (g : Grammar κ) (m : Mention κ) : Except Stop (Bundle κ) :=
  match m.tail? with
  | some tail => spread g m.option (tail.equals || m.name.startsWith "--") tail.text.toList
  | none => .ok ⟨[], some m.option, []⟩

/-- Takes several options one after the other. -/
def takeAll (g : Grammar κ) (r : Reading κ) (os : List (Opt κ × Option String)) : Except Stop (Reading κ) :=
  os.foldlM (fun r o => take g r o.1 o.2) r

/-- The word that stands for itself at the front of some words. -/
def plain? : List (String × Role κ) → Option String
  | (word, .plain) :: _ => some word
  | _ => none

/-- Separators at the front of some words, and the words behind them. -/
def splitSeparators : List (String × Role κ) → List String × List (String × Role κ)
  | (word, .separator) :: rest => (word :: (splitSeparators rest).1, (splitSeparators rest).2)
  | words => ([], words)

/-- What fills a place, and the words behind it. Separators around it are dropped, and so is one that stands for itself. -/
def fillPlace (words : List (String × Role κ)) : Option String × List (String × Role κ) :=
  let (before, words) := splitSeparators words
  let (word?, words) := match plain? words with
    | some word => (some word, words.tail)
    | none => (none, words)
  let (behind, words) := splitSeparators words
  (((before ++ word?.toList ++ behind).erase "--").head?, words)

/-- What fills several places, and the words behind them. -/
def fillPlaces : Nat → List (String × Role κ) → List (Option String) × List (String × Role κ)
  | 0, words => ([], words)
  | n + 1, words =>
    let (first, words) := fillPlace words
    let (others, words) := fillPlaces n words
    (first :: others, words)

/-- Fills the places that have not been reached yet, if words for them come next. -/
def reach (r : Reading κ) (words : List (String × Role κ)) : Reading κ × List (String × Role κ) :=
  match r.places? with
  | none => (r, words)
  | some (.optional count) =>
    let (filled, words) := fillPlaces count words
    ({ r with filled, places? := none }, words)
  | some .command =>
    if (plain? (splitSeparators words).2).isSome then
      ({ r with command? := some (words.map (·.1)), places? := none }, [])
    else (r, words)

/-- A word has the form of an option. -/
def isOption : String × Role κ → Bool
  | (_, .option _) | (_, .unknown) => true
  | _ => false

/-- Takes words from left to right. -/
def walk (g : Grammar κ) : Nat → List (String × Role κ) → Reading κ → Except Stop (Reading κ)
  | 0, _, r => .ok r
  | fuel + 1, words, r =>
    if words.any isOption then
      match words with
      | (word, .unknown) :: rest => walk g fuel rest { r with leftOver := r.leftOver ++ [word] }
      | (_, .option m) :: rest => do
        let b ← bundle g m
        let r := { r with leftOver := r.leftOver ++ b.leftOver }
        match b.last? with
        | none => walk g fuel rest (← takeAll g r b.complete)
        | some o =>
          if o.argument?.isNone then walk g fuel rest (← takeAll g r (b.complete ++ [(o, none)]))
          else match plain? rest with
            | some argument => walk g fuel rest.tail (← takeAll g r (b.complete ++ [(o, some argument)]))
            | none => throw (g.refuseAt o "expected one argument")
      | _ =>
        let (r, behind) := reach r words
        if behind.length < words.length then walk g fuel behind r
        else
          let skipped := words.takeWhile fun w => !isOption w
          walk g fuel (words.drop skipped.length) { r with leftOver := r.leftOver ++ skipped.map (·.1) }
    else
      let (r, behind) := reach r words
      .ok { r with leftOver := r.leftOver ++ behind.map (·.1) }

/-- What the words of a command line say to a program. -/
def read (g : Grammar κ) (places : Places) (words : List String) : Except Stop (Reading κ) := do
  let words ← g.roles words
  walk g (2 * words.length + 1) words ⟨[], [], none, [], if places = .optional 0 then none else some places⟩

end IconForge.CommandLine
