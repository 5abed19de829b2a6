import IconForge.Proofs.CommandLine.Layout

/-!
# Wishes for more and less logging

A word that wishes for more or less logging consists of letters behind one hyphen, or it is the start of a long name behind two. The program
and its commands read such a word as just these options (`readAs_of_wishes`), and a word that they read as one of these options is such a
word, unless it asks for help as well (`wishes_of_bundle`).
-/

namespace IconForge.CommandLine

open Text

/-- The wish of a letter behind a hyphen. -/
def letterWish? : Char → Option OptionKey
  | 'v' => some .verbose
  | 'q' => some .quiet
  | _ => none

/-- What a word says about how much is to be logged. -/
def wishes (word : String) : List OptionKey :=
  match word.toList with
  | '-' :: '-' :: c :: name =>
    if (c :: name) <+: "verbose".toList then [.verbose] else if (c :: name) <+: "quiet".toList then [.quiet] else []
  | '-' :: letters => (letters.mapM letterWish?).getD []
  | _ => []

/-- What some words say about how much is to be logged. Behind a separator they say nothing about it. -/
def wishesIn : List String → List OptionKey
  | [] => []
  | word :: rest => if word = "--" then [] else wishes word ++ wishesIn rest

/-- The words that do not say how much is to be logged. -/
def withoutWishes : List String → List String
  | [] => []
  | word :: rest =>
    if word = "--" then word :: rest
    else if wishes word = [] then word :: withoutWishes rest
    else withoutWishes rest

/-- An option about logging. -/
def OptionKey.IsWish (key : OptionKey) : Prop := key = .verbose ∨ key = .quiet

instance : DecidablePred OptionKey.IsWish := fun _ => inferInstanceAs (Decidable (_ ∨ _))

/-! ## Grammars that know wishes -/

/-- The long name of an option that has nothing to do with logging or help, and is not meant by the start of such a name. -/
def IsSpecial (n : String × Opt OptionKey) : Prop :=
  ['-', '-'] <+: n.1.toList ∧ ¬['-', '-', 'v'] <+: n.1.toList ∧ ¬['-', '-', 'q'] <+: n.1.toList ∧ ¬n.2.key.IsWish ∧ n.2.key ≠ .help

instance : DecidablePred IsSpecial := fun _ => inferInstanceAs (Decidable (_ ∧ _))

/-- A grammar has the options of the program, others with long names, and rivals as the program has them. -/
structure Grammar.HasWishes (g : Grammar OptionKey) : Prop where
  rivals_eq : g.rivals = CommandLine.rivals
  help_eq : g.help = .help
  options_eq : ∃ more, g.options = commonOptions ++ more ∧ ∀ n ∈ more.flatMap fun o => o.names.map fun name => (name, o), IsSpecial n

theorem hasWishes_program : programGrammar.HasWishes := ⟨rfl, rfl, [], rfl, by decide⟩

theorem hasWishes_build : buildGrammar.HasWishes := ⟨rfl, rfl, _, rfl, by decide⟩

theorem hasWishes_serve : serveGrammar.HasWishes := ⟨rfl, rfl, _, rfl, by decide⟩

section
variable {g : Grammar OptionKey} {o : Opt OptionKey} {m : Mention OptionKey} {b : Bundle OptionKey} {word : String} {c : Char}
  {letters : List Char}

/-- A grammar with the wishes is fair: quiet and verbose are each other's rivals. -/
theorem Grammar.HasWishes.fair (hg : g.HasWishes) : g.Fair := by
  obtain ⟨more, hmore, -⟩ := hg.options_eq
  refine ⟨?symm, ?irrefl, ?known⟩ <;> rw [hg.rivals_eq]
  case symm => intro a b; cases a <;> cases b <;> decide
  case irrefl => intro a; cases a <;> decide
  case known =>
    intro a b hb
    have hcommon : ∃ o ∈ commonOptions, o.key = b := by
      revert hb
      cases a <;> cases b <;> decide
    obtain ⟨o, ho, hkey⟩ := hcommon
    exact ⟨o, hmore ▸ List.mem_append_left _ ho, hkey⟩

/-- Wishes for more and for less logging are the only rivals. -/
theorem Grammar.HasWishes.peace_iff (hg : g.HasWishes) (keys : List OptionKey) :
    Peace g keys ↔ ¬(.verbose ∈ keys ∧ .quiet ∈ keys) := by
  have hrivals : ∀ a b, a ∈ CommandLine.rivals b ↔ a = .quiet ∧ b = .verbose ∨ a = .verbose ∧ b = .quiet := by
    intro a b
    cases a <;> cases b <;> decide
  simp only [Peace, hg.rivals_eq, hrivals]
  constructor
  · rintro h ⟨hverbose, hquiet⟩
    exact h _ hverbose _ hquiet (.inr ⟨rfl, rfl⟩)
  · rintro h a ha b hb (⟨rfl, rfl⟩ | ⟨rfl, rfl⟩)
    · exact h ⟨hb, ha⟩
    · exact h ⟨ha, hb⟩

/-- The names of such a grammar are those of the program and more long names. -/
theorem Grammar.HasWishes.names_eq (hg : g.HasWishes) : ∃ more, g.names = programGrammar.names ++ more ∧ ∀ n ∈ more, IsSpecial n := by
  obtain ⟨more, hmore, hspecial⟩ := hg.options_eq
  exact ⟨_, by rw [Grammar.names, hmore, List.flatMap_append]; rfl, hspecial⟩

/-- A name is one of the program's own or a special one. -/
theorem Grammar.HasWishes.names_cases (hg : g.HasWishes) {n : String × Opt OptionKey} (h : n ∈ g.names) :
    n ∈ programGrammar.names ∨ IsSpecial n := by
  obtain ⟨more, hmore, hspecial⟩ := hg.names_eq
  rw [hmore] at h
  exact (List.mem_append.mp h).imp_right (hspecial n)

/-- What an option of the program is by its name. -/
def IsKnown (n : String × Opt OptionKey) : Prop :=
  n.2.argument?.isNone = true ∧ (n.2.key = .help ∧ n.1 ∈ ["-h", "--help"] ∨ n.2.key = .verbose ∧ n.1 ∈ ["-v", "--verbose"] ∨
    n.2.key = .quiet ∧ n.1 ∈ ["-q", "--quiet"])

instance : DecidablePred IsKnown := fun _ => inferInstanceAs (Decidable (_ ∧ _))

/-- The options of the program itself are help and the two wishes, each by a letter and by a long name. -/
theorem isKnown_program : ∀ n ∈ programGrammar.names, IsKnown n := by decide

theorem eq_hyphen_of_hyphens {rest : List Char} (h : ['-', '-'] <+: '-' :: c :: rest) : c = '-' := by
  simpa [eq_comm] using h

/-- A name of an option about logging is known. -/
theorem Grammar.HasWishes.isKnown_of_isWish (hg : g.HasWishes) {n : String × Opt OptionKey} (h : n ∈ g.names) (hwish : n.2.key.IsWish) :
    IsKnown n :=
  (hg.names_cases h).elim (isKnown_program n) fun hspecial => absurd hwish hspecial.2.2.2.1

/-- A name behind one hyphen is known. -/
theorem Grammar.HasWishes.isKnown_of_letter (hg : g.HasWishes) {n : String × Opt OptionKey} (h : n ∈ g.names) {rest : List Char}
    (hname : n.1.toList = '-' :: c :: rest) (hc : c ≠ '-') : IsKnown n := by
  refine (hg.names_cases h).elim (isKnown_program n) fun hspecial => ?_
  have hprefix := hspecial.1
  rw [hname] at hprefix
  exact absurd (eq_hyphen_of_hyphens hprefix) hc

/-- Behind one hyphen a name has one letter. -/
theorem Grammar.HasWishes.name_eq_of_letter (hg : g.HasWishes) {n : String × Opt OptionKey} (h : n ∈ g.names) {rest : List Char}
    (hname : n.1.toList = '-' :: c :: rest) (hc : c ≠ '-') : rest = [] := by
  have hmem : n.1 ∈ ["-h", "--help", "-v", "--verbose", "-q", "--quiet"] := by
    obtain ⟨-, ⟨-, hmem⟩ | ⟨-, hmem⟩ | ⟨-, hmem⟩⟩ := hg.isKnown_of_letter h hname hc
    all_goals
      simp only [List.mem_cons, List.not_mem_nil, or_false] at hmem ⊢
      tauto
  have hforms : ∀ name ∈ ["-h", "--help", "-v", "--verbose", "-q", "--quiet"], name.toList[1]? = some '-' ∨ name.toList.length = 2 := by
    decide
  have hform := hforms n.1 hmem
  rw [hname] at hform
  simpa [hc] using hform

/-- An option is found under one of its names. -/
theorem mem_names_of_find? {name : String} (h : g.find? name = some o) : (name, o) ∈ g.names := by
  obtain ⟨front, behind, heq, -⟩ := List.lookup_eq_some_iff.mp h
  rw [heq]
  simp

/-! ## What words mean -/

/-- How a word mentions an option: by the start of a name, with an argument behind an equals sign, or by a letter with others behind it. -/
inductive Meant (g : Grammar OptionKey) (word : String) : Mention OptionKey → Prop where
  | start {o : Opt OptionKey} {name : String} : (name, o) ∈ g.names → word.toList <+: name.toList → Meant g word ⟨o, name, none⟩
  | valued {o : Opt OptionKey} {name : String} (text : String) : (name, o) ∈ g.names → Meant g word ⟨o, name, some ⟨true, text⟩⟩
  | letters {o : Opt OptionKey} {name : String} {c : Char} {rest : List Char} : (name, o) ∈ g.names → word.toList = '-' :: c :: rest →
      c ≠ '-' → name.toList = ['-', c] → Meant g word ⟨o, name, some ⟨false, String.ofList rest⟩⟩

/-- The single candidate of a word is what the word means. -/
theorem meant_of_candidates (h : g.candidates word = [m]) (hword : ∃ c rest, word.toList = '-' :: c :: rest) : Meant g word m := by
  have hmem : m ∈ g.candidates word := h ▸ List.mem_singleton_self m
  unfold Grammar.candidates at hmem
  split at hmem
  · cases hsplit : splitEquals word with
    | none =>
      rw [hsplit] at hmem
      simp only [List.mem_map, List.mem_filter] at hmem
      obtain ⟨n, ⟨hn, hstart⟩, rfl⟩ := hmem
      exact .start hn (String.startsWith_string_iff.mp hstart)
    | some parts =>
      rw [hsplit] at hmem
      simp only [List.mem_map, List.mem_filter] at hmem
      obtain ⟨n, ⟨hn, -⟩, rfl⟩ := hmem
      exact .valued _ hn
  · rename_i hhyphens
    obtain ⟨n, hn, hsome⟩ := List.mem_filterMap.mp hmem
    obtain ⟨c, rest, hword⟩ := hword
    split at hsome
    · rename_i hletter
      obtain rfl := Option.some.inj hsome
      have hc : c ≠ '-' := by
        rintro rfl
        refine hhyphens (String.startsWith_string_iff.mpr ?_)
        rw [hword]
        exact ⟨rest, rfl⟩
      have hname : n.1.toList = ['-', c] := by rw [hletter, hword, String.toList_ofList]; rfl
      rw [hword]
      exact .letters hn hword hc hname
    · split at hsome
      · rename_i hstart
        obtain rfl := Option.some.inj hsome
        exact .start hn (String.startsWith_string_iff.mp hstart)
      · cases hsome

/-- A word with the role of an option means it, and begins with a hyphen. -/
theorem meant_of_roleOf (h : g.roleOf word = .ok (.option m)) : Meant g word m ∧ ∃ c rest, word.toList = '-' :: c :: rest := by
  unfold Grammar.roleOf at h
  split at h
  · rename_i c rest hword
    refine ⟨?_, c, rest, hword⟩
    have hinexact : g.inexactRole word = .ok (.option m) → Meant g word m := by
      unfold Grammar.inexactRole
      split
      · rintro ⟨⟩
        exact meant_of_candidates ‹_› ⟨c, rest, hword⟩
      · split <;> rintro ⟨⟩
      · rintro ⟨⟩
    split at h
    · cases h
      exact .start (mem_names_of_find? ‹_›) (List.prefix_refl _)
    · split at h
      · split at h
        · cases h
          exact .valued _ (mem_names_of_find? ‹_›)
        · exact hinexact h
      · exact hinexact h
  · cases h

/-! ## Letters behind a hyphen -/

/-- Letters are wishes exactly when the first one is and the others are. -/
theorem mapM_letterWish?_cons {ks : List OptionKey} : (c :: letters).mapM letterWish? = some ks ↔
    ∃ key, letterWish? c = some key ∧ ∃ ks', letters.mapM letterWish? = some ks' ∧ key :: ks' = ks := by
  simp [List.mapM_cons, Option.bind_eq_some_iff]

/-- Where all letters are wishes, each is one. -/
theorem exists_letterWish?_of_mem {ks : List OptionKey} (h : letters.mapM letterWish? = some ks) (hc : c ∈ letters) :
    ∃ key, letterWish? c = some key := by
  induction letters generalizing ks with
  | nil => cases hc
  | cons d letters ih =>
    obtain ⟨key, hkey, ks', hks, -⟩ := mapM_letterWish?_cons.mp h
    rcases List.mem_cons.mp hc with rfl | hmem
    · exact ⟨key, hkey⟩
    · exact ih hks hmem

/-- The letters stand for wishes only. -/
theorem isWish_of_letterWish? {key : OptionKey} (h : letterWish? c = some key) : key.IsWish := by
  unfold letterWish? at h
  split at h
  · cases h
    exact .inl rfl
  · cases h
    exact .inr rfl
  · cases h

theorem isWish_of_mapM {ks : List OptionKey} (h : letters.mapM letterWish? = some ks) : ∀ key ∈ ks, key.IsWish := by
  induction letters generalizing ks with
  | nil =>
    cases h
    simp
  | cons c letters ih =>
    obtain ⟨key, hkey, ks, hks, rfl⟩ := mapM_letterWish?_cons.mp h
    exact List.forall_mem_cons.mpr ⟨isWish_of_letterWish? hkey, ih hks⟩

/-- A letter that names an option is a wish, or it asks for help. -/
theorem IsKnown.letter {n : String × Opt OptionKey} (h : IsKnown n) (hname : n.1.toList = ['-', c]) :
    n.2.argument? = none ∧ (n.2.key = .help ∨ letterWish? c = some n.2.key) := by
  obtain ⟨hargument, hkey⟩ := h
  refine ⟨Option.isNone_iff_eq_none.mp hargument, ?_⟩
  have hletter : ∀ {d : Char} {short long : String}, short.toList = ['-', d] → 2 < long.toList.length → n.1 ∈ [short, long] → c = d := by
    intro d short long hshort hlong hmem
    rcases List.mem_cons.mp hmem with heq | hmem
    · rw [heq, hshort] at hname
      simpa using hname.symm
    · rw [List.mem_singleton.mp hmem] at hname
      exact absurd hlong (by simp [hname])
  rcases hkey with ⟨hkey, -⟩ | ⟨hkey, hmem⟩ | ⟨hkey, hmem⟩
  · exact .inl hkey
  · exact .inr (by rw [@hletter 'v' "-v" "--verbose" (by decide) (by decide) hmem, hkey]; rfl)
  · exact .inr (by rw [@hletter 'q' "-q" "--quiet" (by decide) (by decide) hmem, hkey]; rfl)

/-- The option that a letter stands for is found, and takes no argument. -/
theorem Grammar.HasWishes.find?_letter (hg : g.HasWishes) {key : OptionKey} (h : letterWish? c = some key) :
    ∃ o, g.find? (String.ofList ['-', c]) = some o ∧ o.key = key ∧ o.argument? = none := by
  obtain ⟨more, hmore, -⟩ := hg.names_eq
  unfold Grammar.find?
  rw [hmore, List.lookup_append]
  unfold letterWish? at h
  split at h
  · cases h
    exact ⟨_, rfl, rfl, rfl⟩
  · cases h
    exact ⟨_, rfl, rfl, rfl⟩
  · cases h

/-- An option without an argument takes none behind an equals sign. -/
theorem spread_joined (ho : o.argument? = none) : spread g o true letters ≠ .ok b := by
  cases letters with
  | nil =>
    rw [spread, ho]
    rintro ⟨⟩
  | cons c rest =>
    rw [spread, ho]
    rintro ⟨⟩

/-- The letter behind an option without an argument is an option of its own. -/
theorem spread_cons (ho : o.argument? = none) (hc : c ≠ '-') {next : Opt OptionKey} (hnext : g.find? (String.ofList ['-', c]) = some next)
    (hrest : letters.head? ≠ some '=') : spread g o false (c :: letters) =
      if letters = [] then .ok ⟨[(o, none)], some next, []⟩
      else (spread g next false letters).map fun b => { b with complete := (o, none) :: b.complete } := by
  rw [spread, ho, hnext]
  simp only [Option.isSome_none, Bool.false_eq_true, if_false, Bool.false_or, decide_eq_true_eq, hc]
  split
  · rfl
  · simp at hrest
  · rename_i hne _
    rw [if_neg (by simpa using hne)]

/-- The option in front of its letters is one of those that are read. -/
theorem key_mem_spread {joined : Bool} (h : spread g o joined letters = .ok b) : o.key ∈ keys (b.taken none) := by
  have hfront : ∀ {argument? : Option String} {b : Bundle OptionKey},
      o.key ∈ keys (({ b with complete := (o, argument?) :: b.complete } : Bundle OptionKey).taken none) := List.mem_cons_self
  cases letters with
  | nil =>
    rw [spread] at h
    split at h <;> cases h
    exact @hfront (some "") ⟨[], none, []⟩
  | cons c rest =>
    rw [spread] at h
    split at h
    · cases h
      exact @hfront _ ⟨[], none, []⟩
    · split at h
      · cases h
      · split at h
        · cases h
          exact @hfront none ⟨[], none, _⟩
        · split at h
          · cases h
            exact @hfront none ⟨[], some _, []⟩
          · obtain ⟨b', -, rfl⟩ := map_eq_ok_iff.mp h
            exact hfront
          · obtain ⟨b', -, rfl⟩ := map_eq_ok_iff.mp h
            exact hfront

/-- Letters that are read as options are wishes, or one of them asks for help. -/
theorem spread_cases (hg : g.HasWishes) (ho : o.argument? = none) (h : spread g o false letters = .ok b) (hleft : b.leftOver = []) :
    (∃ ks, letters.mapM letterWish? = some ks) ∨ .help ∈ keys (b.taken none) := by
  induction letters generalizing o b with
  | nil =>
    rw [spread, ho] at h
    cases h
  | cons c rest ih =>
    have hc : c ≠ '-' := by
      rintro rfl
      rw [spread, ho] at h
      cases h
    cases hnext : g.find? (String.ofList ['-', c]) with
    | none =>
      rw [spread, ho, hnext] at h
      simp only [Option.isSome_none, Bool.false_eq_true, if_false, Bool.false_or, decide_eq_true_eq, hc] at h
      cases h
      cases hleft
    | some next =>
      have hname : (String.ofList ['-', c]).toList = ['-', c] := String.toList_ofList
      obtain ⟨hargument, hkey⟩ := (hg.isKnown_of_letter (mem_names_of_find? hnext) hname hc).letter hname
      have hequals : rest.head? ≠ some '=' := by
        intro hhead
        obtain ⟨behind, rfl⟩ := List.head?_eq_some_iff.mp hhead
        rw [spread, ho, hnext] at h
        simp only [Option.isSome_none, Bool.false_eq_true, if_false, Bool.false_or, decide_eq_true_eq, hc] at h
        obtain ⟨b', hb', -⟩ := map_eq_ok_iff.mp h
        exact spread_joined hargument hb'
      rw [spread_cons ho hc hnext hequals] at h
      split at h
      · rename_i hnil
        cases h
        subst hnil
        rcases hkey with hhelp | hwish
        · exact .inr (List.mem_cons_of_mem _ (List.mem_singleton.mpr hhelp.symm))
        · exact .inl ⟨_, mapM_letterWish?_cons.mpr ⟨_, hwish, _, rfl, rfl⟩⟩
      · obtain ⟨b', hb', rfl⟩ := map_eq_ok_iff.mp h
        have hsub : keys (b'.taken none) ⊆ keys ((({ b' with complete := (o, none) :: b'.complete } : Bundle OptionKey)).taken none) :=
          List.subset_cons_self _ _
        rcases ih hargument hb' hleft with ⟨ks, hks⟩ | hhelp
        · rcases hkey with hhelp | hwish
          · exact .inr (hsub (hhelp ▸ key_mem_spread hb'))
          · exact .inl ⟨_, mapM_letterWish?_cons.mpr ⟨_, hwish, _, hks, rfl⟩⟩
        · exact .inr (hsub hhelp)

/-- Wishes behind a hyphen are read as options. -/
theorem spread_wishes (hg : g.HasWishes) (ho : o.argument? = none) {ks : List OptionKey} (h : letters.mapM letterWish? = some ks)
    (hne : letters ≠ []) : ∃ b, spread g o false letters = .ok b ∧ b.leftOver = [] ∧ keys (b.taken none) = o.key :: ks ∧
      ∀ x ∈ b.taken none, x.1.argument? = none := by
  induction letters generalizing o ks with
  | nil => exact absurd rfl hne
  | cons c rest ih =>
    obtain ⟨key, hkey, ks, hks, rfl⟩ := mapM_letterWish?_cons.mp h
    obtain ⟨next, hnext, rfl, hargument⟩ := hg.find?_letter hkey
    have hc : c ≠ '-' := by
      rintro rfl
      cases hkey
    have hequals : rest.head? ≠ some '=' := by
      intro hhead
      obtain ⟨behind, rfl⟩ := List.head?_eq_some_iff.mp hhead
      obtain ⟨key, hkey, -⟩ := mapM_letterWish?_cons.mp hks
      cases hkey
    rw [spread_cons ho hc hnext hequals]
    by_cases hnil : rest = []
    · subst hnil
      cases hks
      refine ⟨_, if_pos rfl, rfl, by simp [keys, Bundle.taken], by simp [Bundle.taken, ho, hargument]⟩
    · obtain ⟨b, hb, hleft, hkeys, hflags⟩ := ih hargument hks hnil
      rw [if_neg hnil, hb]
      refine ⟨_, rfl, hleft, ?_, ?_⟩
      · rw [← hkeys]
        rfl
      · exact List.forall_mem_cons.mpr ⟨ho, hflags⟩

/-! ## Words that are wishes -/

/-- A word is read as options without arguments, and nothing else. -/
def ReadAs (g : Grammar OptionKey) (word : String) (ks : List OptionKey) : Prop :=
  ∃ m b, g.roleOf word = .ok (.option m) ∧ bundle g m = .ok b ∧ b.leftOver = [] ∧ (∀ x ∈ b.taken none, x.1.argument? = none) ∧
    keys (b.taken none) = ks

/-- A name that is found as it stands is read as its option. -/
theorem readAs_of_find? (h : g.find? word = some o) (ho : o.argument? = none) {rest : List Char} (hword : word.toList = '-' :: c :: rest) :
    ReadAs g word [o.key] := by
  refine ⟨⟨o, word, none⟩, ⟨[], some o, []⟩, ?_, rfl, rfl, by simp [Bundle.taken, ho], rfl⟩
  unfold Grammar.roleOf
  rw [hword]
  simp only [h]

theorem splitEquals_eq_none (h : '=' ∉ word.toList) : splitEquals word = none := by
  have hdrop : word.toList.dropWhile (· != '=') = [] := by
    refine List.dropWhile_eq_nil_iff.mpr fun c hc => bne_iff_ne.mpr ?_
    rintro rfl
    exact h hc
  rw [splitEquals, hdrop]

/-- A shortened or bundled word with one candidate is read as the options of its bundle. -/
theorem readAs_of_candidates (h : g.find? word = none) (hequals : '=' ∉ word.toList) (hm : g.candidates word = [m])
    {rest : List Char} (hword : word.toList = '-' :: c :: rest) (hbundle : bundle g m = .ok b) (hleft : b.leftOver = [])
    (hflags : ∀ x ∈ b.taken none, x.1.argument? = none) : ReadAs g word (keys (b.taken none)) := by
  refine ⟨m, b, ?_, hbundle, hleft, hflags, rfl⟩
  have hsplit := splitEquals_eq_none hequals
  unfold Grammar.roleOf
  rw [hword]
  simp only [h, hsplit, Grammar.inexactRole, hm]

/-- Behind a hyphen a word with several letters is meant by the first of them. -/
theorem candidates_letters (hg : g.HasWishes) {key : OptionKey} (hkey : letterWish? c = some key) (hne : letters ≠ [])
    (hword : word.toList = '-' :: c :: letters) : ∃ o name, o.key = key ∧ o.argument? = none ∧ ¬['-', '-'] <+: name.toList ∧
      g.candidates word = [⟨o, name, some ⟨false, String.ofList letters⟩⟩] := by
  have hc : c ≠ '-' := by
    rintro rfl
    cases hkey
  have hhyphens : ¬word.startsWith "--" = true := by
    rw [String.startsWith_string_iff, hword]
    exact fun hprefix => hc (eq_hyphen_of_hyphens hprefix)
  have hnames : ∀ n ∈ g.names, ¬n.1.startsWith word = true := by
    intro n hn hstart
    obtain ⟨rest, hrest⟩ := String.startsWith_string_iff.mp hstart
    rw [hword] at hrest
    exact hne (List.append_eq_nil_iff.mp (hg.name_eq_of_letter hn hrest.symm hc)).1
  obtain ⟨more, hmore, hspecial⟩ := hg.names_eq
  have hcandidates : g.candidates word = g.names.filterMap fun n =>
      if n.1 = String.ofList ['-', c] then some ⟨n.2, n.1, some ⟨false, String.ofList letters⟩⟩ else none := by
    unfold Grammar.candidates
    rw [if_neg hhyphens]
    refine List.filterMap_congr fun n hn => ?_
    rw [hword]
    rw [if_neg (hnames n hn)]
    rfl
  have hnone : (more.filterMap fun n =>
      if n.1 = String.ofList ['-', c] then some (⟨n.2, n.1, some ⟨false, String.ofList letters⟩⟩ : Mention OptionKey) else none) = [] := by
    refine List.filterMap_eq_nil_iff.mpr fun n hn => if_neg fun heq => ?_
    have hprefix := (hspecial n hn).1
    rw [heq, String.toList_ofList] at hprefix
    exact hc (eq_hyphen_of_hyphens hprefix)
  rw [hcandidates, hmore, List.filterMap_append, hnone]
  unfold letterWish? at hkey
  split at hkey
  · cases hkey
    exact ⟨_, _, rfl, rfl, by decide, rfl⟩
  · cases hkey
    exact ⟨_, _, rfl, rfl, by decide, rfl⟩
  · cases hkey

/-- Letters that are wishes are read as such. -/
theorem readAs_of_letters (hg : g.HasWishes) {ks : List OptionKey} (h : letters.mapM letterWish? = some ks) (hne : letters ≠ [])
    (hword : word.toList = '-' :: letters) : ReadAs g word ks := by
  obtain ⟨c, rest, rfl⟩ := List.exists_cons_of_ne_nil hne
  obtain ⟨key, hkey, ks, hks, rfl⟩ := mapM_letterWish?_cons.mp h
  have hc : c ≠ '-' := by
    rintro rfl
    cases hkey
  by_cases hnil : rest = []
  · subst hnil
    cases hks
    obtain ⟨o, hfind, rfl, ho⟩ := hg.find?_letter hkey
    have hback : String.ofList ['-', c] = word := by rw [← hword, String.ofList_toList]
    exact readAs_of_find? (hback ▸ hfind) ho hword
  · have hfind : g.find? word = none := by
      cases hfind : g.find? word with
      | none => rfl
      | some o => exact absurd (hg.name_eq_of_letter (mem_names_of_find? hfind) hword hc) hnil
    have hequals : '=' ∉ word.toList := by
      rw [hword]
      refine List.not_mem_cons_of_ne_of_not_mem (by decide) fun hmem => ?_
      obtain ⟨key, hkey⟩ := exists_letterWish?_of_mem h hmem
      cases hkey
    obtain ⟨o, name, rfl, ho, hname, hcandidates⟩ := candidates_letters hg hkey hnil hword
    obtain ⟨b, hb, hleft, hkeys, hflags⟩ := spread_wishes hg ho hks hnil
    rw [← hkeys]
    refine readAs_of_candidates hfind hequals hcandidates hword ?_ hleft hflags
    rw [← hb]
    have hjoined : name.startsWith "--" = false := Bool.eq_false_iff.mpr fun hstart => hname (String.startsWith_string_iff.mp hstart)
    simp only [bundle, hjoined, Bool.or_self, String.toList_ofList]

/-- The start of a long name that no other name starts like is read as this option. -/
theorem readAs_of_start (hg : g.HasWishes) {long : String}
    (hlong : programGrammar.names.filter (fun n => ['-', '-', c] <+: n.1.toList) = [(long, o)])
    (hspecial : ∀ n, IsSpecial n → ¬['-', '-', c] <+: n.1.toList) (ho : o.argument? = none) (hequals : '=' ∉ long.toList)
    {name : List Char} (hword : word.toList = '-' :: '-' :: c :: name) (hstart : word.toList <+: long.toList) : ReadAs g word [o.key] := by
  obtain ⟨more, hmore, hall⟩ := hg.names_eq
  have hfilter : g.names.filter (fun n => ['-', '-', c] <+: n.1.toList) = [(long, o)] := by
    rw [hmore, List.filter_append, hlong, List.filter_eq_nil_iff.mpr fun n hn => by simpa using hspecial n (hall n hn)]
    rfl
  have hfront : ['-', '-', c] <+: word.toList := ⟨name, hword.symm⟩
  cases hfind : g.find? word with
  | some o' =>
    have hmem : (word, o') ∈ g.names.filter (fun n => ['-', '-', c] <+: n.1.toList) :=
      List.mem_filter.mpr ⟨mem_names_of_find? hfind, by simpa using hfront⟩
    rw [hfilter] at hmem
    obtain ⟨rfl, rfl⟩ := Prod.mk.inj (List.mem_singleton.mp hmem)
    exact readAs_of_find? hfind ho hword
  | none =>
    have hequals : '=' ∉ word.toList := fun hmem => hequals (hstart.subset hmem)
    have hnames : g.names.filter (fun n => n.1.startsWith word) = [(long, o)] := by
      have hboth : g.names.filter (fun n => n.1.startsWith word) =
          (g.names.filter (fun n => ['-', '-', c] <+: n.1.toList)).filter (fun n => n.1.startsWith word) := by
        rw [List.filter_filter]
        refine List.filter_congr fun n _ => ?_
        cases hn : n.1.startsWith word with
        | false => rfl
        | true => simpa using hfront.trans (String.startsWith_string_iff.mp hn)
      rw [hboth, hfilter, List.filter_singleton, String.startsWith_string_iff.mpr hstart]
      rfl
    have hcandidates : g.candidates word = [⟨o, long, none⟩] := by
      unfold Grammar.candidates
      rw [if_pos (String.startsWith_string_iff.mpr (hword ▸ ⟨c :: name, rfl⟩)), splitEquals_eq_none hequals]
      exact congrArg (List.map _) hnames
    exact readAs_of_candidates hfind hequals hcandidates hword rfl rfl (by simp [Bundle.taken, ho])

/-- A long word holds a wish when it begins one of the two long names, and no more than one. -/
theorem wishes_long {name : List Char} (hword : word.toList = '-' :: '-' :: c :: name) :
    wishes word = if (c :: name) <+: "verbose".toList then [.verbose] else if (c :: name) <+: "quiet".toList then [.quiet] else [] := by
  unfold wishes
  rw [hword]
  rfl

/-- A short word holds the wishes of its letters, if all of them are wishes. -/
theorem wishes_letters (hword : word.toList = '-' :: letters) (hletters : ¬∃ c name, letters = '-' :: c :: name) :
    wishes word = (letters.mapM letterWish?).getD [] := by
  unfold wishes
  rw [hword]
  split
  · rename_i c name heq
    exact absurd ⟨c, name, (List.cons.inj heq).2⟩ hletters
  · rename_i heq
    rw [(List.cons.inj heq).2]
  · rename_i hnone
    exact absurd rfl (hnone letters)

/-- A plain word holds no wish. -/
theorem wishes_plain (hword : IsPlain word) : wishes word = [] := by
  unfold wishes
  split
  · rename_i heq
    exact absurd heq (hword _)
  · rename_i heq
    exact absurd heq (hword _)
  · rfl

/-- A word that is a wish is the start of a long name behind two hyphens, or letters behind one. -/
theorem wishes_cases (h : wishes word ≠ []) :
    (∃ name, word.toList = '-' :: '-' :: 'v' :: name ∧ word.toList <+: "--verbose".toList ∧ wishes word = [.verbose]) ∨
      (∃ name, word.toList = '-' :: '-' :: 'q' :: name ∧ word.toList <+: "--quiet".toList ∧ wishes word = [.quiet]) ∨
      ∃ letters, word.toList = '-' :: letters ∧ letters ≠ [] ∧ letters.mapM letterWish? = some (wishes word) := by
  obtain ⟨letters, hword⟩ : ∃ letters, word.toList = '-' :: letters := by
    by_contra hplain
    exact h (wishes_plain fun rest heq => hplain ⟨rest, heq⟩)
  by_cases hlong : ∃ c name, letters = '-' :: c :: name
  · obtain ⟨c, name, rfl⟩ := hlong
    have heq := wishes_long hword
    by_cases hverbose : (c :: name) <+: "verbose".toList
    · obtain ⟨rfl, hname⟩ := List.cons_prefix_cons.mp (show c :: name <+: 'v' :: "erbose".toList from hverbose)
      exact .inl ⟨name, hword, by rw [hword]; simpa using hname, heq.trans (if_pos hverbose)⟩
    · by_cases hquiet : (c :: name) <+: "quiet".toList
      · obtain ⟨rfl, hname⟩ := List.cons_prefix_cons.mp (show c :: name <+: 'q' :: "uiet".toList from hquiet)
        exact .inr (.inl ⟨name, hword, by rw [hword]; simpa using hname, by rw [heq, if_neg hverbose, if_pos hquiet]⟩)
      · exact absurd (by rw [heq, if_neg hverbose, if_neg hquiet]) h
  · have heq := wishes_letters hword hlong
    cases hks : letters.mapM letterWish? with
    | none => exact absurd (by rw [heq, hks]; rfl) h
    | some ks =>
      have hwishes : wishes word = ks := by rw [heq, hks]; rfl
      refine .inr (.inr ⟨letters, hword, ?_, by rw [hwishes, hks]⟩)
      rintro rfl
      cases hks
      exact h hwishes

/-- A wish is an option about logging. -/
theorem isWish_of_mem_wishes {key : OptionKey} (h : key ∈ wishes word) : key.IsWish := by
  obtain ⟨name, -, -, heq⟩ | ⟨name, -, -, heq⟩ | ⟨letters, -, -, hks⟩ := wishes_cases (List.ne_nil_of_mem h)
  · rw [heq] at h
    exact .inl (List.mem_singleton.mp h)
  · rw [heq] at h
    exact .inr (List.mem_singleton.mp h)
  · exact isWish_of_mapM hks key h

/-- A word that is a wish is read as such. -/
theorem readAs_of_wishes (hg : g.HasWishes) (h : wishes word ≠ []) : ReadAs g word (wishes word) := by
  obtain ⟨name, hword, hstart, heq⟩ | ⟨name, hword, hstart, heq⟩ | ⟨letters, hword, hne, hks⟩ := wishes_cases h
  · rw [heq]
    exact readAs_of_start hg (o := flag .verbose ["-v", "--verbose"]) rfl (fun n hn => hn.2.1) rfl (by decide) hword hstart
  · rw [heq]
    exact readAs_of_start hg (o := flag .quiet ["-q", "--quiet"]) rfl (fun n hn => hn.2.2.1) rfl (by decide) hword hstart
  · exact readAs_of_letters hg hks hne hword

example : wishes "-vqv" = [.verbose, .quiet, .verbose] := by decide

/-- The start of a name that is a wish is one. -/
theorem wishes_of_start {long : String} (hlong : long ∈ ["-v", "--verbose", "-q", "--quiet"]) (hne : word ≠ "--") {rest : List Char}
    (hword : word.toList = '-' :: c :: rest) (hstart : word.toList <+: long.toList) : wishes word ≠ [] := by
  have hletter : ∀ {d : Char} {key : OptionKey}, letterWish? d = some key → d ≠ '-' → '-' :: c :: rest <+: ['-', d] → wishes word ≠ [] := by
    intro d key hkey hd hstart
    obtain ⟨rfl, rfl⟩ : c = d ∧ rest = [] := by simpa using hstart
    rw [wishes_letters hword (by simp), mapM_letterWish?_cons.mpr ⟨key, hkey, [], rfl, rfl⟩]
    simp
  have hname : ∀ {name : List Char}, name = "verbose".toList ∨ name = "quiet".toList → '-' :: c :: rest <+: '-' :: '-' :: name →
      wishes word ≠ [] := by
    intro name hname hstart
    obtain ⟨rfl, hrest⟩ : c = '-' ∧ rest <+: name := by simpa using hstart
    cases rest with
    | nil => exact absurd (String.toList_injective (hword.trans rfl)) hne
    | cons d rest =>
      rw [wishes_long hword]
      split
      · simp
      · rename_i hverbose
        rcases hname with rfl | rfl
        · exact absurd hrest hverbose
        · rw [if_pos hrest]
          simp
  rw [hword] at hstart
  simp only [List.mem_cons, List.not_mem_nil, or_false] at hlong
  rcases hlong with rfl | rfl | rfl | rfl
  · exact hletter (d := 'v') rfl (by decide) hstart
  · exact hname (.inl rfl) hstart
  · exact hletter (d := 'q') rfl (by decide) hstart
  · exact hname (.inr rfl) hstart

/-- A word that is read as a wish is one, unless it asks for help as well. -/
theorem wishes_of_bundle (hg : g.HasWishes) (hne : word ≠ "--") (hrole : g.roleOf word = .ok (.option m)) (hbundle : bundle g m = .ok b)
    (hleft : b.leftOver = []) (hwish : ∃ key ∈ keys (b.taken none), key.IsWish) : wishes word ≠ [] ∨ .help ∈ keys (b.taken none) := by
  obtain ⟨hmeant, c, rest, hword⟩ := meant_of_roleOf hrole
  obtain ⟨key, hkey, hwish⟩ := hwish
  cases hmeant with
  | @start o name hname hstart =>
    cases hbundle
    obtain rfl : key = o.key := by simpa [keys, Bundle.taken] using hkey
    obtain ⟨-, hknown⟩ := hg.isKnown_of_isWish hname hwish
    have hlong : name ∈ ["-v", "--verbose", "-q", "--quiet"] := by
      rcases hknown with ⟨hhelp, -⟩ | ⟨-, hmem⟩ | ⟨-, hmem⟩
      · exact absurd hwish (by rw [show o.key = .help from hhelp]; decide)
      · exact List.mem_append_left ["-q", "--quiet"] hmem
      · exact List.mem_append_right ["-v", "--verbose"] hmem
    exact .inl (wishes_of_start hlong hne hword hstart)
  | @valued o name text hname =>
    -- An option without an argument takes none, and one with an argument is no wish.
    cases ho : o.argument? with
    | none => exact absurd hbundle (spread_joined ho)
    | some check =>
      cases hbundle.symm.trans (spread_valued (by rw [ho]; rfl) text)
      obtain rfl : key = o.key := by simpa [keys, Bundle.taken] using hkey
      have hnone := (hg.isKnown_of_isWish hname hwish).1
      simp [ho] at hnone
  | @letters o name d rest' hname hword' hd hletter =>
    obtain ⟨ho, hknown⟩ := (hg.isKnown_of_letter hname hletter hd).letter hletter
    have hjoined : name.startsWith "--" = false := by
      refine Bool.eq_false_iff.mpr fun hstart => hd ?_
      have hprefix := String.startsWith_string_iff.mp hstart
      rw [hletter] at hprefix
      exact eq_hyphen_of_hyphens hprefix
    have hspread : spread g o false rest' = .ok b := by
      rw [← hbundle]
      simp only [bundle, hjoined, Bool.or_self, String.toList_ofList]
    rcases hknown with hhelp | hwish'
    · exact .inr (hhelp ▸ key_mem_spread hspread)
    · rcases spread_cases hg ho hspread hleft with ⟨ks, hks⟩ | hhelp
      · rw [wishes_letters hword' (by rintro ⟨c, name, heq⟩; exact hd (List.cons.inj heq).1),
          mapM_letterWish?_cons.mpr ⟨_, hwish', ks, hks, rfl⟩]
        simp
      · exact .inr hhelp

end

end IconForge.CommandLine
