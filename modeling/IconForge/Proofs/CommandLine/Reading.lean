import IconForge.CommandLine.Command
import Mathlib.Data.List.Forall2

/-!
# Reading the words of a build

Words that stand for themselves fill the places of a program, and options that are complete in one word are taken in order (`walk_takes`).
So the words of a build with its directories in front of its options are read to what they say (`readInvocation_build`).
-/

namespace IconForge.CommandLine

open Text

section
variable {κ : Type} [DecidableEq κ] {g : Grammar κ} {o : Opt κ} {m : Mention κ} {word name text : String} {argument? : Option String}

/-- A word that is taken as an option, by itself. -/
def Takes (g : Grammar κ) (x : String × Role κ) (given : κ × Option String) : Prop :=
  isOption x = true ∧ ∀ fuel rest r, walk g (fuel + 1) (x :: rest) r = walk g fuel rest { r with given := r.given ++ [given] }

/-- A mention that holds all of an option: the name of a flag, or a name with an argument that is accepted. -/
inductive Complete : Mention κ → Option String → Prop where
  | flag {o : Opt κ} (name : String) : o.argument? = none → Complete ⟨o, name, none⟩ none
  | valued {o : Opt κ} {check : String → Option String} {text : String} (name : String) : o.argument? = some check →
      check text = none → Complete ⟨o, name, some ⟨true, text⟩⟩ (some text)

omit [DecidableEq κ] in
/-- An argument behind an equals sign is that of the option. -/
theorem spread_valued (h : o.argument?.isSome = true) (text : String) : spread g o true text.toList = .ok ⟨[(o, some text)], none, []⟩ := by
  cases htext : text.toList with
  | nil =>
    obtain rfl : text = "" := String.toList_eq_nil_iff.mp htext
    rw [spread, if_pos h]
  | cons c rest =>
    have hback : String.ofList (c :: rest) = text := by rw [← htext, String.ofList_toList]
    simp only [spread, h, if_true, hback]

/-- An option without rivals is taken with an argument that is accepted. -/
theorem take_of_accepted (hcheck : ∀ check text, o.argument? = some check → argument? = some text → check text = none)
    (hrivals : g.rivals o.key = []) (hhelp : o.key ≠ g.help) (r : Reading κ) :
    take g r o argument? = .ok { r with given := r.given ++ [(o.key, argument?)] } := by
  have hfind : (g.options.find? fun rival => (g.rivals o.key).contains rival.key && r.has rival.key) = none := by
    rw [hrivals]
    exact List.find?_eq_none.mpr fun rival _ => by simp
  unfold take
  cases hcheck' : o.argument? with
  | none => simp only [hfind, if_neg hhelp, bind, Except.bind, pure, Except.pure]
  | some check =>
    cases argument? with
    | none => simp only [hfind, if_neg hhelp, bind, Except.bind, pure, Except.pure]
    | some text => simp only [hfind, if_neg hhelp, hcheck check text hcheck' rfl, bind, Except.bind, pure, Except.pure]

/-- A complete mention of an option without rivals is taken. -/
theorem Complete.takes (h : Complete m argument?) (hrivals : g.rivals m.option.key = []) (hhelp : m.option.key ≠ g.help)
    (word : String) : Takes g (word, .option m) (m.option.key, argument?) := by
  refine ⟨rfl, fun fuel rest r => ?_⟩
  have hany : ((word, Role.option m) :: rest).any isOption = true := by simp [isOption]
  rw [walk, if_pos hany]
  cases h with
  | @flag o name hnone =>
    have htake := @take_of_accepted κ _ g o none (fun check text hcheck => by rw [hnone] at hcheck; cases hcheck) hrivals hhelp
    simp [bundle, hnone, takeAll, htake, bind, Except.bind, pure, Except.pure]
  | @valued o check text name hcheck haccepted =>
    have htake := @take_of_accepted κ _ g o (some text)
      (fun check' text' hcheck' htext => by cases hcheck.symm.trans hcheck'; cases htext; exact haccepted) hrivals hhelp
    have hspread := @spread_valued κ g o (by rw [hcheck]; rfl) text
    simp [bundle, hspread, takeAll, htake, bind, Except.bind, pure, Except.pure]

/-- Words that are taken as options by themselves are taken in order. -/
theorem walk_takes {xs : List (String × Role κ)} {givens : List (κ × Option String)} (h : List.Forall₂ (Takes g) xs givens) {fuel : Nat}
    (hfuel : xs.length < fuel) {r : Reading κ} (hplaces : r.places? = none) :
    walk g fuel xs r = .ok { r with given := r.given ++ givens } := by
  induction h generalizing fuel r with
  | nil =>
    obtain ⟨fuel, rfl⟩ := Nat.exists_eq_add_one_of_ne_zero (Nat.ne_of_gt hfuel)
    simp [walk, reach, hplaces]
  | @cons x given xs givens hx _ ih =>
    obtain ⟨fuel, rfl⟩ := Nat.exists_eq_add_one_of_ne_zero (Nat.ne_of_gt (Nat.lt_of_le_of_lt (Nat.zero_le _) hfuel))
    have hrest := @ih fuel (Nat.lt_of_succ_lt_succ hfuel) { r with given := r.given ++ [given] } hplaces
    rw [hx.2, hrest, List.append_assoc, List.singleton_append]

omit [DecidableEq κ] in
/-- A word that stands for itself fills a place by itself if no separator comes behind it. -/
theorem fillPlace_plain {rest : List (String × Role κ)} (hword : word ≠ "--") (hrest : splitSeparators rest = ([], rest)) :
    fillPlace ((word, .plain) :: rest) = (some word, rest) := by
  have hseparate : splitSeparators ((word, Role.plain) :: rest) = ([], (word, .plain) :: rest) := by simp [splitSeparators]
  simp [fillPlace, hseparate, plain?, hrest, hword]

omit [DecidableEq κ] in
/-- Two words that stand for themselves fill two places by themselves. -/
theorem fillPlaces_plain {first second : String} {rest : List (String × Role κ)} (hfirst : first ≠ "--") (hsecond : second ≠ "--")
    (hrest : splitSeparators rest = ([], rest)) :
    fillPlaces 2 ((first, .plain) :: (second, .plain) :: rest) = ([some first, some second], rest) := by
  have hseparate : splitSeparators ((second, Role.plain) :: rest) = ([], (second, .plain) :: rest) := by simp [splitSeparators]
  simp [fillPlaces, fillPlace_plain hfirst hseparate, fillPlace_plain hsecond hrest]

/-- Two words that stand for themselves fill two places in front of options. -/
theorem walk_two_places {first second : String} {xs : List (String × Role κ)} {givens : List (κ × Option String)}
    (hfirst : first ≠ "--") (hsecond : second ≠ "--") (h : List.Forall₂ (Takes g) xs givens) {fuel : Nat} (hfuel : xs.length + 1 < fuel) :
    walk g fuel ((first, .plain) :: (second, .plain) :: xs) ⟨[], [], none, [], some (.optional 2)⟩ =
      .ok ⟨givens, [some first, some second], none, [], none⟩ := by
  obtain ⟨fuel, rfl⟩ := Nat.exists_eq_add_one_of_ne_zero (Nat.ne_of_gt (Nat.lt_of_le_of_lt (Nat.zero_le _) hfuel))
  cases h with
  | nil =>
    have hfill := @fillPlaces_plain κ first second [] hfirst hsecond rfl
    simp [walk, isOption, reach, hfill]
  | @cons x given xs givens hx hrest =>
    have hseparate : splitSeparators (x :: xs) = ([], x :: xs) := by
      obtain ⟨word, role⟩ := x
      cases role <;> first | rfl | cases hx.1
    have hany : ((first, .plain) :: (second, .plain) :: x :: xs).any isOption = true := by simp [hx.1]
    have hwalk := @walk_takes κ _ g (x :: xs) (given :: givens) (.cons hx hrest) fuel (by omega)
      ⟨[], [some first, some second], none, [], none⟩ rfl
    unfold walk
    rw [if_pos hany]
    simp [reach, fillPlaces_plain hfirst hsecond hseparate, hwalk]

/-- A word that stands for itself in front of all others is a command, which takes them. -/
theorem walk_command {first : String} {xs : List (String × Role κ)} {fuel : Nat} (hfuel : 1 < fuel) :
    walk g fuel ((first, .plain) :: xs) ⟨[], [], none, [], some .command⟩ =
      .ok ⟨[], [], some (first :: xs.map (·.1)), [], none⟩ := by
  obtain ⟨fuel, rfl⟩ := Nat.exists_eq_add_one_of_ne_zero (Nat.ne_of_gt (Nat.lt_of_le_of_lt (Nat.zero_le _) hfuel))
  have hseparate : splitSeparators ((first, Role.plain) :: xs) = ([], (first, .plain) :: xs) := by simp [splitSeparators]
  have hreach : reach ⟨[], [], none, [], some .command⟩ ((first, Role.plain) :: xs) =
      ((⟨[], [], some (first :: xs.map (·.1)), [], none⟩ : Reading κ), []) := by
    simp [reach, hseparate, plain?]
  have hend := @walk_takes κ _ g [] [] .nil fuel (Nat.lt_of_succ_lt_succ hfuel) ⟨[], [], some (first :: xs.map (·.1)), [], none⟩ rfl
  unfold walk
  split
  · simp only [hreach, List.length_nil, List.length_cons, Nat.zero_lt_succ, if_true, hend, List.append_nil]
  · simp only [hreach, List.map_nil, List.append_nil]

/-! ## Roles -/

/-- An option with its argument in one word. -/
def valuedWord (name text : String) : String := name ++ "=" ++ text

theorem toList_valuedWord (name text : String) : (valuedWord name text).toList = name.toList ++ '=' :: text.toList := by
  rw [valuedWord, String.toList_append, String.toList_append]
  simp

/-- A word with a value is split at its first equals sign. -/
theorem splitEquals_valued (hname : '=' ∉ name.toList) (text : String) : splitEquals (valuedWord name text) = some (name, text) := by
  have hfront : ∀ c ∈ name.toList, (c != '=') = true := fun c hc => bne_iff_ne.mpr fun heq => hname (heq ▸ hc)
  obtain ⟨htake, hdrop⟩ := takeWhile_append_cons hfront (by decide : ('=' != '=') = false) text.toList
  rw [splitEquals, toList_valuedWord, htake, hdrop]
  simp only [String.ofList_toList]

/-- The form of a long option: two hyphens and a name without an equals sign. -/
def IsLong (name : String) : Prop := ['-', '-'] <+: name.toList ∧ '=' ∉ name.toList

instance : DecidablePred IsLong := fun _ => inferInstanceAs (Decidable (_ ∧ _))

omit [DecidableEq κ] in
/-- No name of an option goes on behind an equals sign. -/
theorem find?_valued (hnames : ∀ n ∈ g.names, '=' ∉ n.1.toList) (name text : String) : g.find? (valuedWord name text) = none := by
  refine List.lookup_eq_none_iff.mpr fun n hn => bne_iff_ne.mpr fun heq => hnames n hn ?_
  rw [← heq, toList_valuedWord]
  simp

omit [DecidableEq κ] in
/-- What a long option with an argument behind an equals sign is, is told by the part in front. -/
theorem roleOf_valued (hlong : IsLong name) (hnames : ∀ n ∈ g.names, '=' ∉ n.1.toList) (text : String) :
    g.roleOf (valuedWord name text) =
      match g.find? name with
      | some o => .ok (.option ⟨o, name, some ⟨true, text⟩⟩)
      | none => g.inexactRole (valuedWord name text) := by
  obtain ⟨⟨rest, hrest⟩, hplain⟩ := hlong
  have hlist : (valuedWord name text).toList = '-' :: '-' :: (rest ++ '=' :: text.toList) := by
    rw [toList_valuedWord, ← hrest]
    rfl
  unfold Grammar.roleOf
  rw [hlist]
  cases hfind : g.find? name <;> simp only [find?_valued hnames, splitEquals_valued hplain, hfind]

omit [DecidableEq κ] in
/-- A long option that no name starts like is not refused, but it is no option. -/
theorem exists_roleOf_valued (hlong : IsLong name) (hnames : ∀ n ∈ g.names, '=' ∉ n.1.toList)
    (hnone : ∀ n ∈ g.names, ¬name.toList <+: n.1.toList) (text : String) : ∃ role, g.roleOf (valuedWord name text) = .ok role := by
  have hfind : g.find? name = none :=
    List.lookup_eq_none_iff.mpr fun n hn => bne_iff_ne.mpr fun heq => hnone n hn (heq ▸ List.prefix_refl name.toList)
  rw [roleOf_valued hlong hnames, hfind]
  have hstart : (valuedWord name text).startsWith "--" = true := by
    rw [String.startsWith_string_iff, toList_valuedWord]
    exact hlong.1.trans (List.prefix_append _ _)
  have hfilter : g.names.filter (fun n => n.1.startsWith name) = [] := by
    refine List.filter_eq_nil_iff.mpr fun n hn => ?_
    rw [String.startsWith_string_iff]
    exact hnone n hn
  have hcandidates : g.candidates (valuedWord name text) = [] := by
    unfold Grammar.candidates
    rw [if_pos hstart, splitEquals_valued hlong.2]
    exact congrArg (List.map _) hfilter
  simp only [Grammar.inexactRole, hcandidates]
  exact ⟨_, rfl⟩

omit [DecidableEq κ] in
/-- The role of the first word and those of the others are the roles of the line. -/
theorem roles_cons {words : List String} {role : Role κ} {xs : List (String × Role κ)} (hword : word ≠ "--")
    (hrole : g.roleOf word = .ok role) (hwords : g.roles words = .ok xs) : g.roles (word :: words) = .ok ((word, role) :: xs) := by
  rw [Grammar.roles, if_neg hword, hrole, hwords]
  rfl

/-- A word that says a complete option. -/
def Says (g : Grammar κ) (word : String) (given : κ × Option String) : Prop :=
  word ≠ "--" ∧ ∃ role, g.roleOf word = .ok role ∧ Takes g (word, role) given

/-- A long option without an argument says just itself. -/
theorem says_flag (hlong : IsLong word) (hne : word ≠ "--") (hfind : g.find? word = some o) (hargument : o.argument? = none)
    (hrivals : g.rivals o.key = []) (hhelp : o.key ≠ g.help) : Says g word (o.key, none) := by
  refine ⟨hne, .option ⟨o, word, none⟩, ?_, (Complete.flag word hargument).takes hrivals hhelp _⟩
  obtain ⟨⟨rest, hrest⟩, -⟩ := hlong
  unfold Grammar.roleOf
  rw [← hrest]
  simp only [List.cons_append, hfind]

/-- A long option with its argument in the same word says both. -/
theorem says_valued {check : String → Option String} (hlong : IsLong name) (hnames : ∀ n ∈ g.names, '=' ∉ n.1.toList)
    (hfind : g.find? name = some o) (hargument : o.argument? = some check) (haccepted : check text = none)
    (hrivals : g.rivals o.key = []) (hhelp : o.key ≠ g.help) : Says g (valuedWord name text) (o.key, some text) := by
  refine ⟨fun heq => ?_, .option ⟨o, name, some ⟨true, text⟩⟩, by rw [roleOf_valued hlong hnames, hfind], ?_⟩
  · have hmem : '=' ∈ (valuedWord name text).toList := by simp [toList_valuedWord]
    rw [heq] at hmem
    exact absurd hmem (by decide)
  · exact (Complete.valued name hargument haccepted).takes hrivals hhelp _

/-- Words that each say one option have roles that take these options. -/
theorem roles_of_says {words : List String} {givens : List (κ × Option String)} (h : List.Forall₂ (Says g) words givens) :
    ∃ xs, g.roles words = .ok xs ∧ List.Forall₂ (Takes g) xs givens := by
  induction h with
  | nil => exact ⟨[], rfl, .nil⟩
  | cons hword _ ih =>
    obtain ⟨hne, role, hrole, htakes⟩ := hword
    obtain ⟨xs, hxs, hall⟩ := ih
    exact ⟨_, roles_cons hne hrole hxs, .cons htakes hall⟩

/-- A word without a hyphen at its front. -/
def IsPlain (word : String) : Prop := ∀ rest, word.toList ≠ '-' :: rest

theorem IsPlain.ne_separator (h : IsPlain word) : word ≠ "--" := by
  rintro rfl
  exact h ['-'] (by decide)

/-- Two words that stand for themselves and options behind them are read as they are. -/
theorem read_two_places {first second : String} (hfirst : IsPlain first) (hsecond : IsPlain second) {words : List String}
    {givens : List (κ × Option String)} (h : List.Forall₂ (Says g) words givens) :
    read g (.optional 2) (first :: second :: words) = .ok ⟨givens, [some first, some second], none, [], none⟩ := by
  obtain ⟨xs, hxs, hall⟩ := roles_of_says h
  have hroles := roles_cons hfirst.ne_separator (roleOf_plain g first hfirst)
    (roles_cons hsecond.ne_separator (roleOf_plain g second hsecond) hxs)
  simp only [read, hroles, bind, Except.bind]
  exact walk_two_places hfirst.ne_separator hsecond.ne_separator hall (by simp only [List.length_cons]; omega)

/-- A command in front of words that are not refused takes them. -/
theorem read_command {first : String} (hfirst : IsPlain first) {words : List String}
    (h : ∀ word ∈ words, word ≠ "--" ∧ ∃ role, g.roleOf word = .ok role) :
    read g .command (first :: words) = .ok ⟨[], [], some (first :: words), [], none⟩ := by
  have hroles : ∃ xs, g.roles words = .ok xs ∧ xs.map (·.1) = words := by
    induction words with
    | nil => exact ⟨[], rfl, rfl⟩
    | cons word rest ih =>
      obtain ⟨hne, role, hrole⟩ := h word List.mem_cons_self
      obtain ⟨xs, hxs, hmap⟩ := ih fun other hother => h other (List.mem_cons_of_mem _ hother)
      exact ⟨_, roles_cons hne hrole hxs, by rw [List.map_cons, hmap]⟩
  obtain ⟨xs, hxs, hmap⟩ := hroles
  simp only [read, roles_cons hfirst.ne_separator (roleOf_plain g first hfirst) hxs, bind, Except.bind]
  rw [← hmap]
  exact walk_command (by simp only [List.length_cons]; omega)

end

/-! ## The words of a build -/

/-- The words for the options of a build. -/
def optionWords (typescript : Bool) (pattern? : Option String) (naming? : Option Component.Naming) : List String :=
  (if typescript then ["--typescript"] else []) ++ (pattern?.map (valuedWord "--pattern")).toList ++
    (naming?.map fun naming => valuedWord "--naming" naming.toString).toList

/-- A request on the command line that tells the directories and the options of a build. -/
def toldRequest (input output : String) (typescript : Bool) (pattern? : Option String) (naming? : Option Component.Naming) :
    BuildRequest :=
  { inputDir? := some input, outputDir? := some output, typescript, settings := ".", pattern?, naming? := naming?.map (·.toString)
    noFormat := false, logFile? := none }

/-- The options of a build as they are given. -/
def optionsGiven (typescript : Bool) (pattern? : Option String) (naming? : Option Component.Naming) :
    List (OptionKey × Option String) :=
  (if typescript then [(.typescript, none)] else []) ++ (pattern?.map fun pattern => (.pattern, some pattern)).toList ++
    (naming?.map fun naming => (.naming, some naming.toString)).toList

theorem buildGrammar_names_plain : ∀ n ∈ buildGrammar.names, '=' ∉ n.1.toList := by decide

theorem programGrammar_names_plain : ∀ n ∈ programGrammar.names, '=' ∉ n.1.toList := by decide

theorem says_typescript : Says buildGrammar "--typescript" (.typescript, none) :=
  says_flag (o := flag .typescript ["--typescript"]) (by decide) (by decide) rfl rfl rfl (by decide)

theorem says_pattern (pattern : String) : Says buildGrammar (valuedWord "--pattern" pattern) (.pattern, some pattern) :=
  says_valued (o := valued .pattern "--pattern") (by decide) buildGrammar_names_plain rfl rfl rfl rfl (by decide)

/-- The word of a known naming can be chosen. -/
theorem choiceProblem_naming (naming : Component.Naming) :
    choiceProblem (Component.Naming.words.map (·.1)) naming.toString = none := by
  cases naming <;> decide

/-- The naming of a policy is accepted as the argument of its option. -/
theorem says_naming (naming : Component.Naming) :
    Says buildGrammar (valuedWord "--naming" naming.toString) (.naming, some naming.toString) := by
  have hlong : IsLong "--naming" := by decide
  exact says_valued (o := ⟨.naming, ["--naming"], some (choiceProblem (Component.Naming.words.map (·.1)))⟩) hlong
    buildGrammar_names_plain rfl rfl (choiceProblem_naming naming) rfl (by decide)

/-- The words for the options of a build say these options. -/
theorem optionWords_says (typescript : Bool) (pattern? : Option String) (naming? : Option Component.Naming) :
    List.Forall₂ (Says buildGrammar) (optionWords typescript pattern? naming?) (optionsGiven typescript pattern? naming?) := by
  unfold optionWords optionsGiven
  refine List.rel_append (List.rel_append ?typescript ?pattern) ?naming
  case typescript =>
    cases typescript
    · exact .nil
    · exact .cons says_typescript .nil
  case pattern =>
    cases pattern? with
    | none => exact .nil
    | some pattern => exact .cons (says_pattern pattern) .nil
  case naming =>
    cases naming? with
    | none => exact .nil
    | some naming => exact .cons (says_naming naming) .nil

/-- In front of a command the words for the options of a build are not refused. -/
theorem exists_roleOf_optionWords {typescript : Bool} {pattern? : Option String} {naming? : Option Component.Naming} {word : String}
    (h : word ∈ optionWords typescript pattern? naming?) : word ≠ "--" ∧ ∃ role, programGrammar.roleOf word = .ok role := by
  simp only [optionWords, List.mem_append, Option.mem_toList, Option.map_eq_some_iff] at h
  rcases h with (htypescript | ⟨pattern, -, rfl⟩) | ⟨naming, -, rfl⟩
  · cases typescript with
    | false => cases htypescript
    | true =>
      obtain rfl := List.mem_singleton.mp htypescript
      exact ⟨by decide, .unknown, by with_unfolding_all rfl⟩
  · exact ⟨(says_pattern pattern).1, exists_roleOf_valued (by decide) programGrammar_names_plain (by decide) _⟩
  · exact ⟨(says_naming naming).1, exists_roleOf_valued (by decide) programGrammar_names_plain (by decide) _⟩

/-- The options that are given make the request. -/
theorem buildCommand_optionsGiven (input output : String) (typescript : Bool) (pattern? : Option String)
    (naming? : Option Component.Naming) :
    buildCommand ⟨optionsGiven typescript pattern? naming?, [some input, some output], none, [], none⟩ =
      .build (toldRequest input output typescript pattern? naming?) := by
  cases typescript <;> cases pattern? <;> cases naming? <;> rfl

/-- The words of a build are read to what they say. -/
theorem readInvocation_build {input output : String} (hinput : IsPlain input) (houtput : IsPlain output) (typescript : Bool)
    (pattern? : Option String) (naming? : Option Component.Naming) :
    readInvocation ("build" :: input :: output :: optionWords typescript pattern? naming?) =
      .ok ⟨false, false, .build (toldRequest input output typescript pattern? naming?)⟩ := by
  have hsays := optionWords_says typescript pattern? naming?
  have houter : read programGrammar .command ("build" :: input :: output :: optionWords typescript pattern? naming?) =
      .ok ⟨[], [], some ("build" :: input :: output :: optionWords typescript pattern? naming?), [], none⟩ := by
    refine read_command (by rintro rest ⟨⟩) fun word hword => ?_
    rcases List.mem_cons.mp hword with rfl | hword
    · exact ⟨hinput.ne_separator, .plain, roleOf_plain _ _ hinput⟩
    rcases List.mem_cons.mp hword with rfl | hword
    · exact ⟨houtput.ne_separator, .plain, roleOf_plain _ _ houtput⟩
    · exact exists_roleOf_optionWords hword
  have hinner : readCommand "build" (input :: output :: optionWords typescript pattern? naming?) =
      .ok (⟨optionsGiven typescript pattern? naming?, [some input, some output], none, [], none⟩,
        .build (toldRequest input output typescript pattern? naming?)) := by
    rw [readCommand, (by decide : choiceProblem commandNames "build" = none), if_pos rfl, read_two_places hinput houtput hsays,
      ← buildCommand_optionsGiven]
    rfl
  have hverbose : ∀ key ∈ [OptionKey.verbose, .quiet], (optionsGiven typescript pattern? naming?).any (·.1 = key) = false := by
    cases typescript <;> cases pattern? <;> cases naming? <;> simp [optionsGiven]
  simp only [readInvocation, houter, hinner, bind, Except.bind, Reading.has, hverbose _ (by decide : OptionKey.verbose ∈ _),
    hverbose _ (by decide : OptionKey.quiet ∈ _)]
  rfl

end IconForge.CommandLine
