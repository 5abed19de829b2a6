import IconForge.Proofs.CommandLine.Trimming

/-!
# How much is logged

How much is to be logged can be said in front of a command and behind it, any number of times. On either side wishes for more and for less
exclude each other. Around a command that is read without them, wishes that do not clash on one side are taken and change nothing else,
unless one of them stands between the words for the places or between an option and its argument (`readInvocation_wishes`). The two sides
are not held against each other (`readInvocation_wishes_false`).
-/

namespace IconForge.CommandLine

section
variable {g : Grammar OptionKey} {words : List String} {xs ys : List (String × Role OptionKey)} {x : String × Role OptionKey}
  {os os' : List (Opt OptionKey × Option String)}

/-! ## Commands -/

/-- The grammar of a command. -/
def commandGrammar (name : String) : Grammar OptionKey := if name = "build" then buildGrammar else serveGrammar

/-- How many places a command has. -/
def commandPlaces (name : String) : Nat := if name = "build" then 2 else 0

/-- What a command is told. -/
def commandOf (name : String) (r : Reading OptionKey) : Command := if name = "build" then buildCommand r else serveCommand r

/-- Each command of the program takes the wishes. -/
theorem hasWishes_command (name : String) : (commandGrammar name).HasWishes := by
  unfold commandGrammar
  split
  · exact hasWishes_build
  · exact hasWishes_serve

/-- A command is read with its own grammar, and any other word is refused with the list of the commands. -/
theorem readCommand_eq {name : String} (words : List String) : readCommand name words =
    if name ∈ commandNames then
      (read (commandGrammar name) (.optional (commandPlaces name)) words).map fun r => (r, commandOf name r)
    else .error (programGrammar.refuse ("argument command: " ++ (choiceProblem commandNames name).getD "")) := by
  unfold readCommand choiceProblem
  by_cases hname : name ∈ commandNames
  · rw [if_pos (by simpa using hname), if_pos hname]
    unfold commandGrammar commandPlaces commandOf
    by_cases hbuild : name = "build" <;> simp only [hbuild, if_true, if_false]
  · rw [if_neg (by simpa using hname), if_neg hname]
    rfl

/-- What a command is told does not depend on wishes. -/
theorem commandOf_congr (name : String) {given given' : List (OptionKey × Option String)}
    (h : (given.filter fun x => ¬x.1.IsWish) = given'.filter fun x => ¬x.1.IsWish) (filled : List (Option String)) :
    commandOf name ⟨given, filled, none, [], none⟩ = commandOf name ⟨given', filled, none, [], none⟩ := by
  have hfilter : ∀ key : OptionKey, ¬key.IsWish → (given.filter fun x => x.1 = key) = given'.filter fun x => x.1 = key := by
    intro key hkey
    have hboth : ∀ l : List (OptionKey × Option String),
        (l.filter fun x => x.1 = key) = (l.filter fun x => ¬x.1.IsWish).filter fun x => x.1 = key := by
      intro l
      rw [List.filter_filter]
      refine List.filter_congr fun x _ => ?_
      by_cases hx : x.1 = key <;> simp [hx, hkey]
    rw [hboth given, hboth given', h]
  have hlast : ∀ key : OptionKey, ¬key.IsWish →
      (⟨given, filled, none, [], none⟩ : Reading OptionKey).last? key =
        (⟨given', filled, none, [], none⟩ : Reading OptionKey).last? key := by
    intro key hkey
    simp only [Reading.last?, hfilter key hkey]
  have hhas : ∀ key : OptionKey, ¬key.IsWish →
      (⟨given, filled, none, [], none⟩ : Reading OptionKey).has key = (⟨given', filled, none, [], none⟩ : Reading OptionKey).has key := by
    intro key hkey
    have hany : ∀ l : List (OptionKey × Option String), (l.any fun x => x.1 = key) = !(l.filter fun x => x.1 = key).isEmpty := by
      intro l
      induction l with
      | nil => rfl
      | cons x l ih => by_cases hx : x.1 = key <;> simp [hx, ih]
    simp only [Reading.has, hany, hfilter key hkey]
  unfold commandOf buildCommand serveCommand
  rw [hlast .settings (by decide), hlast .pattern (by decide), hlast .naming (by decide), hlast .logFile (by decide),
    hlast .host (by decide), hlast .port (by decide), hhas .typescript (by decide), hhas .noFormat (by decide)]
  rfl

/-! ## The front -/

/-- The option that comes last in a bundle has a name. -/
theorem exists_name_of_spread {o o' : Opt OptionKey} {joined : Bool} {letters : List Char} {b : Bundle OptionKey}
    (h : spread g o joined letters = .ok b) (hlast : b.last? = some o') : ∃ name, (name, o') ∈ g.names := by
  fun_induction spread g o joined letters generalizing b with
  | case1 | case3 | case5 =>
    cases h
    cases hlast
  | case2 | case4 => cases h
  | case6 _ _ _ _ _ _ hfind =>
    cases h
    cases hlast
    exact ⟨_, mem_names_of_find? hfind⟩
  | case7 _ _ _ _ _ _ _ _ ih | case8 _ _ _ _ _ _ _ _ _ _ ih =>
    obtain ⟨b', hb', rfl⟩ := map_eq_ok_iff.mp h
    exact ih hb' hlast

/-- Words in front of a command are options only: none of them takes an argument. -/
theorem isOption_of_pieces (h : Pieces programGrammar xs os) (htold : Told programGrammar xs) : ∀ x ∈ xs, isOption x = true := by
  induction h with
  | nil => simp
  | @cons ws xs os os' hpiece _ ih =>
    intro x hx
    rcases List.mem_append.mp hx with hx | hx
    · cases hpiece with
      | complete word _ _ _ =>
        rw [List.mem_singleton.mp hx]
        rfl
      | @argument word argument m b o hbundle hleft hwaiting =>
        obtain ⟨hlast, hargument⟩ := Option.filter_eq_some_iff.mp hwaiting
        have hmeant := (meant_of_roleOf (htold (word, .option m) (by simp) rfl).2).1
        obtain ⟨name, hname⟩ : ∃ name, (name, o) ∈ programGrammar.names := by
          cases hmeant with
          | start hname _ =>
            cases hbundle
            cases hlast
            exact ⟨_, hname⟩
          | valued text _ => exact exists_name_of_spread hbundle hlast
          | letters _ _ _ _ => exact exists_name_of_spread hbundle hlast
        have hnone : o.argument? = none := Option.isNone_iff_eq_none.mp (isKnown_program _ hname).1
        rw [hnone] at hargument
        cases hargument
    · exact ih (fun y hy => htold y (List.mem_append_right _ hy)) x hx

/-- A list is cut in one way only at the first element that a property does not hold of. -/
theorem split_unique {P : String → Prop} {front front' behind behind' : List String} {word word' : String}
    (h : front ++ word :: behind = front' ++ word' :: behind') (hfront : ∀ w ∈ front, P w) (hfront' : ∀ w ∈ front', P w) (hword : ¬P word)
    (hword' : ¬P word') : front = front' ∧ word = word' ∧ behind = behind' := by
  induction front generalizing front' with
  | nil =>
    cases front' with
    | nil =>
      obtain ⟨rfl, rfl⟩ := List.cons.inj h
      exact ⟨rfl, rfl, rfl⟩
    | cons w front' =>
      obtain ⟨rfl, -⟩ := List.cons.inj h
      exact absurd (hfront' _ List.mem_cons_self) hword
  | cons w front ih =>
    cases front' with
    | nil =>
      obtain ⟨rfl, -⟩ := List.cons.inj h
      exact absurd (hfront _ List.mem_cons_self) hword'
    | cons w' front' =>
      obtain ⟨rfl, hrest⟩ := List.cons.inj h
      obtain ⟨rfl, rfl, rfl⟩ := ih hrest (fun w hw => hfront w (List.mem_cons_of_mem _ hw))
        fun w hw => hfront' w (List.mem_cons_of_mem _ hw)
      exact ⟨rfl, rfl, rfl⟩

/-- In front of the first separator words are what they are by themselves. -/
theorem roles_append {front behind : List String} (hfront : "--" ∉ front) : g.roles (front ++ behind) = .ok xs ↔
    ∃ ys zs, g.roles front = .ok ys ∧ g.roles behind = .ok zs ∧ xs = ys ++ zs := by
  induction front generalizing xs with
  | nil => simp [Grammar.roles]
  | cons word front ih =>
    have hword : word ≠ "--" := fun heq => hfront (heq ▸ List.mem_cons_self)
    have hrest : "--" ∉ front := fun hmem => hfront (List.mem_cons_of_mem _ hmem)
    rw [List.cons_append]
    simp only [roles_cons_eq_ok_iff, ih hrest, hword, false_and, false_or, true_and, ne_eq, not_false_eq_true]
    constructor
    · rintro ⟨role, hrole, _, ⟨ys, zs, hys, hzs, rfl⟩, rfl⟩
      exact ⟨_, zs, ⟨role, hrole, ys, hys, rfl⟩, hzs, rfl⟩
    · rintro ⟨_, zs, ⟨role, hrole, ys, hys, rfl⟩, hzs, rfl⟩
      exact ⟨role, hrole, _, ⟨ys, zs, hys, hzs, rfl⟩, rfl⟩

/-- The names of commands are plain words. -/
theorem isPlain_command {name : String} (h : name ∈ commandNames) : IsPlain name := by
  simp only [commandNames, List.mem_cons, List.not_mem_nil, or_false] at h
  rcases h with rfl | rfl <;> rintro rest ⟨⟩

/-- A word with the role of an option is not plain. -/
theorem not_isPlain_of_option (htold : Told g xs) (hx : x ∈ xs) (hoption : isOption x = true) : ¬IsPlain x.1 := by
  intro hplain
  have hrole : x.2 = .plain := by simpa using (htold x hx hoption).2.symm.trans (roleOf_plain g x.1 hplain)
  obtain ⟨word, role⟩ := x
  subst hrole
  cases hoption

/-- An option is found in a reading exactly when it was noted. -/
theorem has_noted {key : OptionKey} {filled : List (Option String)} {command? : Option (List String)} {leftOver : List String}
    {places? : Option Places} : (⟨noted os, filled, command?, leftOver, places?⟩ : Reading OptionKey).has key = decide (key ∈ keys os) := by
  rw [Bool.eq_iff_iff, decide_eq_true_eq]
  simp [Reading.has, noted, keys]

/-- A command line is read in two steps, and nothing may be left over by either. -/
theorem readInvocation_eq_ok {i : Invocation} : readInvocation words = .ok i ↔ ∃ outer name rest inner command,
    read programGrammar .command words = .ok outer ∧ outer.command? = some (name :: rest) ∧
      readCommand name rest = .ok (inner, command) ∧ outer.leftOver = [] ∧ inner.leftOver = [] ∧
      i = ⟨outer.has .verbose || inner.has .verbose, outer.has .quiet || inner.has .quiet, command⟩ := by
  unfold readInvocation
  rw [bind_eq_ok_iff]
  constructor
  · rintro ⟨outer, houter, h⟩
    split at h
    · rename_i name rest hcommand
      obtain ⟨⟨inner, command⟩, hinner, h⟩ := bind_eq_ok_iff.mp h
      dsimp only at h
      split at h
      · rename_i hleft
        cases h
        obtain ⟨hleft, hleft'⟩ := List.append_eq_nil_iff.mp hleft
        exact ⟨outer, name, rest, inner, command, houter, hcommand, hinner, hleft, hleft', rfl⟩
      · cases h
    · cases h
  · rintro ⟨outer, name, rest, inner, command, houter, hcommand, hinner, hleft, hleft', rfl⟩
    refine ⟨outer, houter, ?_⟩
    simp only [hcommand, bind_eq_ok_iff]
    exact ⟨(inner, command), hinner, by simp [hleft, hleft']; rfl⟩

/-- The words before a command hold no separator. -/
theorem separator_not_mem (h : Pieces programGrammar xs os) (htold : Told programGrammar xs) : "--" ∉ xs.map (·.1) := by
  intro hmem
  obtain ⟨x, hx, heq⟩ := List.mem_map.mp hmem
  exact (htold x hx (isOption_of_pieces h htold x hx)).1 heq

/-- In front of a command that is read there are options only, and behind it the words that it takes. -/
theorem roles_front {name name' : String} {front behind rest : List String} (hname : name ∈ commandNames) (hname' : name' ∈ commandNames)
    (hfront : ∀ word ∈ front, ¬IsPlain word) (hroles : programGrammar.roles (front ++ name :: behind) = .ok (xs ++ ys))
    (hpieces : Pieces programGrammar xs os) (hmap : ys.map (·.1) = name' :: rest) :
    name' = name ∧ rest = behind ∧ programGrammar.roles front = .ok xs ∧ ∃ zs, programGrammar.roles behind = .ok zs := by
  obtain ⟨htold, hwords⟩ := told_of_roles hroles
  have htold : Told programGrammar xs := fun x hx => htold x (List.mem_append_left _ hx)
  have hoption := isOption_of_pieces hpieces htold
  have hbefore : ∀ word ∈ xs.map (·.1), ¬IsPlain word := fun word hword => by
    obtain ⟨x, hx, rfl⟩ := List.mem_map.mp hword
    exact not_isPlain_of_option htold hx (hoption x hx)
  rw [List.map_append, hmap] at hwords
  obtain ⟨heq, rfl, rfl⟩ := split_unique hwords hbefore hfront (not_not.mpr (isPlain_command hname'))
    (not_not.mpr (isPlain_command hname))
  have hseparator : "--" ∉ front := heq ▸ separator_not_mem hpieces htold
  obtain ⟨xs', ys', hxs, hys, happend⟩ := (roles_append hseparator).mp hroles
  have hlength : xs.length = xs'.length := by
    have hlength := congrArg List.length (heq.trans (told_of_roles hxs).2.symm)
    simpa using hlength
  obtain ⟨rfl, rfl⟩ := List.append_inj happend hlength
  rcases roles_cons_eq_ok_iff.mp hys with ⟨heq, -⟩ | ⟨-, role, -, zs, hzs, -⟩
  · exact absurd heq (isPlain_command hname).ne_separator
  · exact ⟨rfl, rfl, hxs, zs, hzs⟩

/-- A command is read from options in front of it, its name, and the words behind it. -/
theorem readInvocation_eq_ok_iff {name : String} {front behind : List String} (hname : name ∈ commandNames)
    (hfront : ∀ word ∈ front, ¬IsPlain word) {i : Invocation} : readInvocation (front ++ name :: behind) = .ok i ↔
      ∃ os os' filled, ReadTo programGrammar 0 front os [] ∧ (∃ xs, programGrammar.roles behind = .ok xs) ∧
        ReadTo (commandGrammar name) (commandPlaces name) behind os' filled ∧
        i = ⟨decide (.verbose ∈ keys os) || decide (.verbose ∈ keys os'), decide (.quiet ∈ keys os) || decide (.quiet ∈ keys os'),
          commandOf name ⟨noted os', filled, none, [], none⟩⟩ := by
  constructor
  · intro h
    obtain ⟨outer, name', rest, inner, command, houter, hcommand, hinner, hleft, hleft', rfl⟩ := readInvocation_eq_ok.mp h
    rw [readCommand_eq] at hinner
    split at hinner
    · rename_i hname'
      obtain ⟨r, hread, hr⟩ := map_eq_ok_iff.mp hinner
      obtain ⟨rfl, rfl⟩ := Prod.mk.inj hr
      obtain ⟨before, behind', os, hroles, hpieces, -, -, hmap, hmay, hpeace, rfl⟩ :=
        (read_command_eq_ok_iff hasWishes_program.fair).mp ⟨houter, hleft, hcommand⟩
      obtain ⟨rfl, rfl, hbefore, zs, hzs⟩ := roles_front hname hname' hfront hroles hpieces hmap
      obtain ⟨xs, os', filled, hroles', hlaid, hmay', hpeace', rfl⟩ :=
        (read_eq_ok_iff (hasWishes_command name').fair).mp ⟨hread, hleft'⟩
      refine ⟨os, os', filled, ⟨⟨before, hbefore, .of_pieces hpieces⟩, hmay, hpeace⟩, ⟨zs, hzs⟩,
        ⟨⟨xs, hroles', hlaid⟩, hmay', hpeace'⟩, ?_⟩
      simp only [has_noted]
    · cases hinner
  · rintro ⟨os, os', filled, ⟨⟨xs, hroles, hlaid⟩, hmay, hpeace⟩, ⟨zs, hzs⟩, ⟨⟨ys, hroles', hlaid'⟩, hmay', hpeace'⟩, rfl⟩
    have hpieces := hlaid.pieces
    obtain ⟨htold, hwords⟩ := told_of_roles hroles
    have hseparator : "--" ∉ front := hwords ▸ separator_not_mem hpieces htold
    have hplain := isPlain_command hname
    have houter := (read_command_eq_ok_iff hasWishes_program.fair).mpr ⟨xs, (name, .plain) :: zs, os,
      (roles_append hseparator).mpr ⟨xs, _, hroles, roles_cons hplain.ne_separator (roleOf_plain _ _ hplain) hzs, rfl⟩, hpieces,
      by simp [isOption], by simp [splitSeparators, plain?], rfl, hmay, hpeace, rfl⟩
    have hinner := (read_eq_ok_iff (hasWishes_command name).fair).mpr ⟨ys, os', filled, hroles', hlaid', hmay', hpeace', rfl⟩
    have hcommand : readCommand name behind =
        .ok (⟨noted os', filled, none, [], none⟩, commandOf name ⟨noted os', filled, none, [], none⟩) := by
      rw [readCommand_eq, if_pos hname, hinner.1]
      rfl
    refine readInvocation_eq_ok.mpr ⟨_, name, behind, _, _, houter.1, ?_, hcommand, houter.2.1, hinner.2, ?_⟩
    · rw [houter.2.2, List.map_cons, (told_of_roles hzs).2]
    · simp only [has_noted]

/-! ## Wishes around a command -/

/-- A word that is a wish is a piece by itself. -/
theorem Piece.of_wishes (hg : g.HasWishes) (hwish : wishes x.1 ≠ []) (hrole : g.roleOf x.1 = .ok x.2) : ∃ os, Piece g [x] os := by
  obtain ⟨m, b, hrole', hbundle, hleft, hflags, -⟩ := readAs_of_wishes hg hwish
  obtain ⟨word, role⟩ := x
  obtain rfl : role = .option m := Except.ok.inj (hrole.symm.trans hrole')
  refine ⟨_, .complete word hbundle hleft ?_⟩
  refine Option.filter_eq_none_iff.mpr fun o hlast => ?_
  have hnone : o.argument? = none := hflags (o, none) (by simp [Bundle.taken, show b.last? = some o from hlast])
  simp [hnone]

/-- Words that each hold a wish are a line in pieces. -/
theorem pieces_of_wishes (hg : g.HasWishes) (h : ∀ word ∈ words, wishes word ≠ []) :
    "--" ∉ words ∧ ∃ xs os, g.roles words = .ok xs ∧ Pieces g xs os := by
  have hseparator : "--" ∉ words := fun hmem => h _ hmem (by decide)
  refine ⟨hseparator, ?_⟩
  induction words with
  | nil => exact ⟨[], [], rfl, .nil⟩
  | cons word words ih =>
    obtain ⟨hne, hrest⟩ := not_or.mp (mt List.mem_cons.mpr hseparator)
    obtain ⟨xs, os, hroles, hpieces⟩ := ih (fun w hw => h w (List.mem_cons_of_mem _ hw)) hrest
    have hwish := h word List.mem_cons_self
    obtain ⟨m, -, hrole, -⟩ := readAs_of_wishes hg hwish
    obtain ⟨os₁, hpiece⟩ := @Piece.of_wishes g (word, .option m) hg hwish hrole
    exact ⟨_, _, roles_cons (Ne.symm hne) hrole hroles, .cons hpiece hpieces⟩

/-- Any wishes at the ends of some words leave them laid out. -/
theorem LaidOut.around (hg : g.HasWishes) {n : Nat} (first last : List String) (hfirst : ∀ word ∈ first, wishes word ≠ [])
    (hlast : ∀ word ∈ last, wishes word ≠ []) (hwords : "--" ∉ words) (h : LaidOut g n words) :
    LaidOut g n (first ++ (words ++ last)) := by
  obtain ⟨ys, os, filled, hroles, hlaid⟩ := h
  obtain ⟨hseparator, xs, os₁, hroles₁, hpieces₁⟩ := pieces_of_wishes hg hfirst
  obtain ⟨-, zs, os₂, hroles₂, hpieces₂⟩ := pieces_of_wishes hg hlast
  have hall : g.roles (first ++ (words ++ last)) = .ok (xs ++ (ys ++ zs)) :=
    (roles_append hseparator).mpr ⟨xs, _, hroles₁, (roles_append hwords).mpr ⟨ys, zs, hroles, hroles₂, rfl⟩, rfl⟩
  cases hlaid with
  | @intro before row behind _ _ hbefore hrow hfull hbehind =>
    have hwhole : xs ++ (before ++ row ++ behind ++ zs) = xs ++ before ++ row ++ (behind ++ zs) := by simp only [List.append_assoc]
    exact ⟨_, _, _, hwhole ▸ hall, .intro (hpieces₁.append hbefore) hrow hfull (hbehind.append hpieces₂)⟩

/-- In front of a command each word is a piece. -/
theorem piece_of_pieces_cons (h : Pieces programGrammar (x :: xs) os) (htold : Told programGrammar (x :: xs)) :
    (∃ os₁, Piece programGrammar [x] os₁) ∧ ∃ os₂, Pieces programGrammar xs os₂ := by
  have hoption := isOption_of_pieces h htold
  generalize hwords : x :: xs = ws at h
  cases h with
  | nil => cases hwords
  | @cons ws ys os₁ os₂ hpiece hpieces =>
    cases hpiece with
    | complete word hbundle hleft hwaiting =>
      obtain ⟨rfl, rfl⟩ := List.cons.inj hwords
      exact ⟨⟨_, .complete word hbundle hleft hwaiting⟩, _, hpieces⟩
    | argument word argument _ _ _ =>
      obtain ⟨-, rfl⟩ := List.cons.inj hwords
      cases hoption (argument, .plain) (by simp)

/-- Wishes may stand anywhere among the options in front of a command. -/
theorem laidOut_front {front : List String} (h : LaidOut programGrammar 0 (withoutWishes front)) : LaidOut programGrammar 0 front := by
  obtain ⟨ys, os, filled, hroles', hlaid⟩ := h
  obtain ⟨xs, hroles⟩ := exists_roles hasWishes_program hroles'
  obtain rfl := Except.ok.inj (hroles'.symm.trans (roles_withoutWishes hasWishes_program hroles).1)
  have hpieces : ∀ {xs os}, Told programGrammar xs → Pieces programGrammar (xs.filter isKept) os → ∃ os', Pieces programGrammar xs os' := by
    intro xs
    induction xs with
    | nil => exact fun _ _ => ⟨[], .nil⟩
    | cons x xs ih =>
      intro os htold h
      have hrest : Told programGrammar xs := fun y hy => htold y (List.mem_cons_of_mem _ hy)
      cases hkept : isKept x with
      | true =>
        rw [List.filter_cons_of_pos hkept] at h
        have hfilter : Told programGrammar (x :: xs.filter isKept) := fun y hy => htold y <|
          (List.mem_cons.mp hy).elim (fun heq => heq ▸ List.mem_cons_self) fun hmem => List.mem_cons_of_mem _ (List.mem_of_mem_filter hmem)
        obtain ⟨⟨os₁, hpiece⟩, os₂, hpieces⟩ := piece_of_pieces_cons h hfilter
        obtain ⟨os', hpieces⟩ := ih hrest hpieces
        exact ⟨_, .cons hpiece hpieces⟩
      | false =>
        rw [List.filter_cons_of_neg (by simp [hkept])] at h
        obtain ⟨os', hpieces⟩ := ih hrest h
        simp only [isKept, Bool.or_eq_false_iff, Bool.not_eq_false', List.isEmpty_eq_false_iff] at hkept
        obtain ⟨os₁, hpiece⟩ := Piece.of_wishes hasWishes_program hkept.2 (htold x List.mem_cons_self hkept.1).2
        exact ⟨_, .cons hpiece hpieces⟩
  obtain ⟨os', hpieces⟩ := hpieces (told_of_roles hroles).1 hlaid.pieces
  exact ⟨xs, os', [], hroles, .of_pieces hpieces⟩

/-- A word asks for help, on the side of the program or of a command. -/
def AsksForHelp (word : String) : Prop :=
  ∃ g ∈ [programGrammar, buildGrammar, serveGrammar], ∃ m, g.roleOf word = .ok (.option m) ∧ AsksHelp g (word, .option m)

/-- A command line is refused. -/
def Refused (answer : Except Stop Invocation) : Prop := ∃ usage program message, answer = .error (.refused usage program message)

/-- What the grammar refuses the program refuses. -/
theorem Refused.of_refuses {stop : Stop} (h : g.Refuses stop) : Refused (.error stop) := by
  obtain ⟨message, rfl⟩ := h
  exact ⟨_, _, message, rfl⟩

/-- A reading of a command line that stops refuses it, or one of its words asks for help. -/
theorem readInvocation_error {stop : Stop} (h : readInvocation words = .error stop) :
    Refused (.error stop) ∨ ∃ word ∈ words, AsksForHelp word := by
  have hstopped : ∀ {g : Grammar OptionKey} {places ws stop}, g ∈ [programGrammar, buildGrammar, serveGrammar] → ws ⊆ words →
      read g places ws = .error stop → Refused (.error stop) ∨ ∃ word ∈ words, AsksForHelp word := by
    intro g places ws stop hg hsub h
    rcases read_error h with hrefuses | ⟨xs, hroles, hrefuses | ⟨-, x, hx, hasks⟩⟩
    · exact .inl (.of_refuses hrefuses)
    · exact .inl (.of_refuses hrefuses)
    · obtain ⟨htold, hwords⟩ := told_of_roles hroles
      obtain ⟨m, b, hm, hbundle, hhelp⟩ := hasks
      obtain ⟨word, role⟩ := x
      obtain rfl : role = .option m := hm
      exact .inr ⟨word, hsub (hwords ▸ List.mem_map_of_mem hx), g, hg, m, (htold _ hx rfl).2, m, b, rfl, hbundle, hhelp⟩
  unfold readInvocation at h
  rcases bind_eq_error_iff.mp h with houter | ⟨outer, houter, h⟩
  · exact hstopped (by simp) (List.Subset.refl _) houter
  split at h
  · rename_i name rest hcommand
    rcases bind_eq_error_iff.mp h with hinner | ⟨⟨inner, command⟩, -, h⟩
    · rw [readCommand_eq] at hinner
      split at hinner
      · have hrest : rest ⊆ words := by
          obtain ⟨xs, hroles, hwalk⟩ := bind_eq_ok_iff.mp houter
          rcases walk_command? hwalk with hnone | ⟨ys, hys, hsome⟩
          · cases hnone.symm.trans hcommand
          · have heq := Option.some.inj (hsome.symm.trans hcommand)
            rw [← (told_of_roles hroles).2]
            exact List.Subset.trans (heq ▸ List.subset_cons_self name rest) (List.map_subset _ hys)
        have hgrammar : commandGrammar name ∈ [programGrammar, buildGrammar, serveGrammar] := by
          unfold commandGrammar
          split <;> simp
        exact hstopped hgrammar hrest (map_eq_error_iff.mp hinner)
      · cases hinner
        exact .inl ⟨_, _, _, rfl⟩
    · dsimp only at h
      split at h
      · cases h
      · cases h
        exact .inl ⟨_, _, _, rfl⟩
  · cases h
    exact .inl ⟨_, _, _, rfl⟩

/-- A line that is read but for its wishes is refused if it is not read with them. -/
theorem refused_of_withoutWishes {name : String} {front behind : List String} (hname : name ∈ commandNames)
    (hfront : ∀ word ∈ front, ¬IsPlain word) {i : Invocation}
    (hi : readInvocation (withoutWishes front ++ name :: withoutWishes behind) = .ok i) {stop : Stop}
    (h : readInvocation (front ++ name :: behind) = .error stop) : Refused (.error stop) := by
  obtain ⟨os₁, os₂, filled, hbefore, ⟨zs, hzs⟩, hbehind, -⟩ :=
    (readInvocation_eq_ok_iff hname fun word hword => hfront word (withoutWishes_subset _ hword)).mp hi
  obtain ⟨xs₁, hroles₁, hlaid₁⟩ := hbefore.laid
  obtain ⟨xs, os, hroles, hlaid, hmay, -, -⟩ := hbefore.exists_laid hasWishes_program (laidOut_front ⟨xs₁, os₁, [], hroles₁, hlaid₁⟩)
  obtain ⟨ys, hys⟩ := exists_roles hasWishes_program hzs
  have hplain := isPlain_command hname
  have hseparator : "--" ∉ front := by
    rw [← (told_of_roles hroles).2]
    exact separator_not_mem hlaid.pieces (told_of_roles hroles).1
  have houter := read_command_eq ((roles_append hseparator).mpr
    ⟨xs, _, hroles, roles_cons hplain.ne_separator (roleOf_plain _ _ hplain) hys, rfl⟩) hlaid.pieces (by simp [isOption])
    (by simp [splitSeparators, plain?])
  unfold readInvocation at h
  rw [houter] at h
  cases htake : takeAll programGrammar (.start (some .command)) os with
  | error stop' =>
    rw [htake] at h
    cases h
    rcases takeAll_error htake with hrefuses | ⟨-, hhelp⟩
    · exact .of_refuses hrefuses
    · obtain ⟨y, hy, hyhelp⟩ := List.mem_map.mp hhelp
      exact absurd hyhelp (hmay y hy).2
  | ok r =>
    rw [htake] at h
    simp only [Except.map, bind, Except.bind, List.map_cons, (told_of_roles hys).2] at h
    cases hinner : readCommand name behind with
    | error stop' =>
      rw [hinner] at h
      cases h
      rw [readCommand_eq, if_pos hname] at hinner
      rcases read_error (map_eq_error_iff.mp hinner) with hrefuses | ⟨xs', hroles', hrefuses | ⟨-, x, hx, hasks⟩⟩
      · exact .of_refuses hrefuses
      · exact .of_refuses hrefuses
      · exact absurd hasks (hbehind.not_asksHelp (hasWishes_command name) hroles' hx)
    | ok inner =>
      rw [hinner] at h
      dsimp only at h
      split at h
      · cases h
      · cases h
        exact ⟨_, _, _, rfl⟩

/-- Neither side of a command that is read has clashing wishes, and the words behind it are laid out. -/
theorem laidOut_of_readInvocation {name : String} {front behind : List String} (hname : name ∈ commandNames)
    (hfront : ∀ word ∈ front, ¬IsPlain word) {i : Invocation} (h : readInvocation (front ++ name :: behind) = .ok i) :
    ¬(Clash (wishesIn front) ∨ Clash (wishesIn behind)) ∧ LaidOut (commandGrammar name) (commandPlaces name) behind := by
  obtain ⟨os, os', filled, hbefore, -, hbehind, -⟩ := (readInvocation_eq_ok_iff hname hfront).mp h
  obtain ⟨xs, hroles, hlaid⟩ := hbehind.laid
  exact ⟨not_or.mpr ⟨hbefore.not_clash hasWishes_program, hbehind.not_clash (hasWishes_command name)⟩, xs, os', filled, hroles, hlaid⟩

/-- A line that is read but for its wishes wishes for nothing, and is read with them if neither side clashes and the words behind the
command are laid out. -/
theorem readInvocation_of_withoutWishes {name : String} {front behind : List String} (hname : name ∈ commandNames)
    (hfront : ∀ word ∈ front, ¬IsPlain word) {i : Invocation}
    (hi : readInvocation (withoutWishes front ++ name :: withoutWishes behind) = .ok i) :
    i.verbose = false ∧ i.quiet = false ∧
      (¬(Clash (wishesIn front) ∨ Clash (wishesIn behind)) → LaidOut (commandGrammar name) (commandPlaces name) behind →
        readInvocation (front ++ name :: behind) = .ok ⟨decide (.verbose ∈ wishesIn front ++ wishesIn behind),
          decide (.quiet ∈ wishesIn front ++ wishesIn behind), i.command⟩) := by
  obtain ⟨os₁, os₂, filled, hbefore, ⟨zs, hzs⟩, hbehind, hi'⟩ :=
    (readInvocation_eq_ok_iff hname fun word hword => hfront word (withoutWishes_subset _ hword)).mp hi
  have hnone : ∀ {key : OptionKey}, key.IsWish → key ∉ keys os₁ ∧ key ∉ keys os₂ := fun hkey =>
    ⟨fun hmem => hbefore.not_isWish hasWishes_program _ hmem hkey, fun hmem => hbehind.not_isWish (hasWishes_command name) _ hmem hkey⟩
  refine ⟨?verbose, ?quiet, ?accepted⟩
  case verbose => simp [hi', hnone (.inl rfl)]
  case quiet => simp [hi', hnone (.inr rfl)]
  case accepted =>
    intro hclash hlaid
    obtain ⟨hclash₁, hclash₂⟩ := not_or.mp hclash
    obtain ⟨xs₁, hroles₁, hlaid₁⟩ := hbefore.laid
    obtain ⟨os, hread, -, hkeys⟩ := hbefore.of_withoutWishes hasWishes_program (laidOut_front ⟨xs₁, os₁, [], hroles₁, hlaid₁⟩) hclash₁
    obtain ⟨os', hread', hnoted, hkeys'⟩ := hbehind.of_withoutWishes (hasWishes_command name) hlaid hclash₂
    refine (readInvocation_eq_ok_iff hname hfront).mpr ⟨os, os', filled, hread, exists_roles hasWishes_program hzs, hread', ?_⟩
    have hwish : ∀ key : OptionKey, key.IsWish →
        decide (key ∈ wishesIn front ++ wishesIn behind) = (decide (key ∈ keys os) || decide (key ∈ keys os')) := by
      intro key hkey
      rw [Bool.eq_iff_iff]
      simp [hkeys key hkey, hkeys' key hkey]
    have hrest : ((noted os₂).filter fun x => ¬x.1.IsWish) = noted os₂ := by
      refine List.filter_eq_self.mpr fun x hx => ?_
      obtain ⟨y, hy, rfl⟩ := List.mem_map.mp hx
      simpa using hbehind.not_isWish (hasWishes_command name) _ (List.mem_map_of_mem hy)
    rw [hwish _ (.inl rfl), hwish _ (.inr rfl), hi', commandOf_congr name (hnoted.trans hrest.symm) filled]

/-- Clashing wishes on one side of a command have the line refused, unless a word asks for help. A line that is read but for its wishes is
read with them as well, to the same command and to just what either side wishes for, if neither side clashes and the words behind the
command are still laid out, as they are when the wishes come first or last (`LaidOut.around`). Otherwise it is refused. -/
theorem readInvocation_wishes {name : String} {front behind : List String} (hname : name ∈ commandNames)
    (hfront : ∀ word ∈ front, ¬IsPlain word) :
    let answer := readInvocation (front ++ name :: behind)
    let clash := Clash (wishesIn front) ∨ Clash (wishesIn behind)
    (clash → ∃ stop, answer = .error stop ∧ (Refused answer ∨ ∃ word ∈ front ++ behind, AsksForHelp word)) ∧
    ∀ i, readInvocation (withoutWishes front ++ name :: withoutWishes behind) = .ok i →
      let said := wishesIn front ++ wishesIn behind
      let laidOut := LaidOut (commandGrammar name) (commandPlaces name) behind
      i.verbose = false ∧ i.quiet = false ∧
      (¬clash ∧ laidOut → answer = .ok ⟨decide (.verbose ∈ said), decide (.quiet ∈ said), i.command⟩) ∧
      (clash ∨ ¬laidOut → Refused answer) := by
  intro answer clash
  have hstopped : clash ∨ ¬LaidOut (commandGrammar name) (commandPlaces name) behind → ∃ stop, answer = .error stop := by
    intro h
    cases hanswer : answer with
    | ok i =>
      obtain ⟨hclash, hlaid⟩ := laidOut_of_readInvocation hname hfront hanswer
      exact (h.elim hclash fun hno => hno hlaid).elim
    | error stop => exact ⟨stop, rfl⟩
  refine ⟨fun hclash => ?_, fun i hi => ?_⟩
  · obtain ⟨stop, hstop⟩ := hstopped (.inl hclash)
    refine ⟨stop, hstop, ?_⟩
    rw [hstop]
    refine (readInvocation_error hstop).imp_right ?_
    rintro ⟨word, hword, hasks⟩
    refine ⟨word, ?_, hasks⟩
    -- The name of a command stands for itself.
    rcases List.mem_append.mp hword with hmem | hmem
    · exact List.mem_append_left _ hmem
    · rcases List.mem_cons.mp hmem with rfl | hmem
      · obtain ⟨g, -, m, hrole, -⟩ := hasks
        cases hrole.symm.trans (roleOf_plain g _ (isPlain_command hname))
      · exact List.mem_append_right _ hmem
  · obtain ⟨hverbose, hquiet, haccepted⟩ := readInvocation_of_withoutWishes hname hfront hi
    refine ⟨hverbose, hquiet, fun ⟨hclash, hlaid⟩ => haccepted hclash hlaid, fun h => ?_⟩
    obtain ⟨stop, hstop⟩ := hstopped h
    rw [hstop]
    exact refused_of_withoutWishes hname hfront hi hstop

/-- Wishes for more logging on both sides of a command are one, and with a wish for less beside them the line is refused. -/
theorem readInvocation_wishes_around :
    readInvocation ["-vv", "build", "--verb", "icons", "out", "-v"] =
        .ok ⟨true, false, .build (toldRequest "icons" "out" false none none)⟩ ∧
      Refused (readInvocation ["-v", "build", "icons", "out", "-vq"]) := by
  have hplain : readInvocation ["build", "icons", "out"] = .ok ⟨false, false, .build (toldRequest "icons" "out" false none none)⟩ :=
    readInvocation_build (by rintro rest ⟨⟩) (by rintro rest ⟨⟩) false none none
  have hfront : ∀ {word rest}, word.toList = '-' :: rest → ∀ w ∈ [word], ¬IsPlain w := by
    intro word rest hword w hw hplain
    obtain rfl := List.mem_singleton.mp hw
    exact hplain rest hword
  have hlaid : LaidOut buildGrammar 2 ["--verb", "icons", "out", "-v"] :=
    (@laidOut_of_readInvocation "build" [] ["icons", "out"] (by decide) (by simp) _ hplain).2.around hasWishes_build
      ["--verb"] ["-v"] (by decide) (by decide) (by decide)
  have haround := (@readInvocation_wishes "build" ["-vv"] ["--verb", "icons", "out", "-v"] (by decide) (hfront rfl)).2 _ hplain
  have hclash := (@readInvocation_wishes "build" ["-v"] ["icons", "out", "-vq"] (by decide) (hfront rfl)).2 _ hplain
  exact ⟨haround.2.2.1 ⟨by decide, hlaid⟩, hclash.2.2.2 (.inl (by decide))⟩

/-- A wish for more logging in front of a command and one for less behind it are taken both, and a wish between two words that stand for
themselves has the line refused. -/
theorem readInvocation_wishes_false :
    (¬∀ (name : String) (front behind : List String), name ∈ commandNames → (∀ word ∈ front, ¬IsPlain word) →
      Clash (wishesIn front ++ wishesIn behind) → Refused (readInvocation (front ++ name :: behind))) ∧
    ¬∀ (name : String) (front behind : List String) (i : Invocation), name ∈ commandNames → (∀ word ∈ front, ¬IsPlain word) →
      ¬Clash (wishesIn front ++ wishesIn behind) → readInvocation (withoutWishes front ++ name :: withoutWishes behind) = .ok i →
      readInvocation (front ++ name :: behind) = .ok ⟨decide (.verbose ∈ wishesIn front ++ wishesIn behind),
        decide (.quiet ∈ wishesIn front ++ wishesIn behind), i.command⟩ := by
  constructor
  · intro h
    have hboth : (readInvocation (["-v"] ++ "build" :: ["icons", "out", "-q"])).toOption.isSome = true := by decide +kernel
    obtain ⟨usage, program, message, hrefused⟩ := h "build" ["-v"] ["icons", "out", "-q"] (by decide)
      (fun word hword hplain => hplain ['v'] (by rw [List.mem_singleton.mp hword]; rfl)) (by decide)
    rw [hrefused] at hboth
    cases hboth
  · intro h
    have hbetween : (readInvocation ([] ++ "build" :: ["icons", "-v", "out"])).toOption.isSome = false := by decide +kernel
    have hplain := @readInvocation_build "icons" "out" (by rintro rest ⟨⟩) (by rintro rest ⟨⟩) false none none
    have hread := h "build" [] ["icons", "-v", "out"] _ (by decide) (by simp) (by decide) hplain
    rw [hread] at hbetween
    cases hbetween

end

end IconForge.CommandLine
