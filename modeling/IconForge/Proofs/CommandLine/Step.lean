import IconForge.Proofs.CommandLine.Reading
import IconForge.Proofs.Traverse

/-!
# One step of a reading

An option is taken if its argument is accepted, no rival has been given, and it is not help that it asks for (`take_eq_ok_iff`). Words are
taken step by step, one equation for each kind of word in front. A reading that stops refuses the words, unless one of them asks for help
(`walk_error`).
-/

namespace IconForge.CommandLine

section
variable {κ : Type} [DecidableEq κ] {g : Grammar κ} {r r' : Reading κ} {o : Opt κ} {os os' : List (Opt κ × Option String)}
  {argument? : Option String} {x : String × Role κ} {xs ys rest : List (String × Role κ)} {fuel : Nat} {stop : Stop}

/-! ## Taking options -/

/-- Being rivals goes both ways, between different options that the program has. -/
structure Grammar.Fair (g : Grammar κ) : Prop where
  symm : ∀ a b, a ∈ g.rivals b → b ∈ g.rivals a
  irrefl : ∀ a, a ∉ g.rivals a
  known : ∀ a, ∀ b ∈ g.rivals a, ∃ o ∈ g.options, o.key = b

/-- What is wrong with the argument of an option. -/
def Opt.problem? (o : Opt κ) (argument? : Option String) : Option String :=
  match o.argument?, argument? with
  | some check, some argument => check argument
  | _, _ => none

/-- An option with its argument may be taken: the argument is accepted, and it is not help that is asked for. -/
def MayTake (g : Grammar κ) (x : Opt κ × Option String) : Prop := x.1.problem? x.2 = none ∧ x.1.key ≠ g.help

/-- No two of some options are rivals. -/
def Peace (g : Grammar κ) (keys : List κ) : Prop := ∀ a ∈ keys, ∀ b ∈ keys, a ∉ g.rivals b

/-- The keys of some options. -/
def keys (os : List (Opt κ × Option String)) : List κ := os.map (·.1.key)

/-- What is noted of some options. -/
def noted (os : List (Opt κ × Option String)) : List (κ × Option String) := os.map fun x => (x.1.key, x.2)

/-- A rival of an option that has been given. -/
def rival? (g : Grammar κ) (r : Reading κ) (o : Opt κ) : Option (Opt κ) :=
  g.options.find? fun rival => (g.rivals o.key).contains rival.key && r.has rival.key

/-- What stands in the way of an option: its argument, a rival, or help that is asked for. -/
theorem take_eq : take g r o argument? =
    match o.problem? argument?, rival? g r o with
    | some problem, _ => .error (g.refuseAt o problem)
    | none, some rival => .error (g.refuseAt o ("not allowed with argument " ++ rival.title))
    | none, none => if o.key = g.help then .error (.help g.usage) else .ok { r with given := r.given ++ [(o.key, argument?)] } := by
  rw [rival?]
  unfold take Opt.problem?
  cases o.argument? with
  | none => cases g.options.find? _ <;> by_cases hhelp : o.key = g.help <;> simp only [hhelp, if_true, if_false] <;> rfl
  | some check =>
    cases argument? with
    | none => cases g.options.find? _ <;> by_cases hhelp : o.key = g.help <;> simp only [hhelp, if_true, if_false] <;> rfl
    | some text =>
      cases hcheck : check text <;> simp only [hcheck] <;> cases g.options.find? _ <;> by_cases hhelp : o.key = g.help <;>
        simp only [hhelp, if_true, if_false] <;> rfl

/-- No rival is found exactly when none of the options given so far is one. -/
theorem rival?_eq_none_iff (hfair : g.Fair) : rival? g r o = none ↔ ∀ key ∈ r.given.map (·.1), key ∉ g.rivals o.key := by
  simp only [rival?, List.find?_eq_none, Bool.and_eq_true, List.contains_iff_mem, Reading.has, List.any_eq_true, decide_eq_true_eq,
    List.mem_map]
  constructor
  · rintro h key ⟨given, hgiven, rfl⟩ hrival
    obtain ⟨rival, hmem, hkey⟩ := hfair.known _ _ hrival
    exact h rival hmem ⟨hkey ▸ hrival, given, hgiven, hkey.symm⟩
  · rintro h rival - ⟨hrival, given, hgiven, hkey⟩
    exact h given.1 ⟨given, hgiven, rfl⟩ (hkey ▸ hrival)

/-- An option is taken exactly when it may be and has no rival so far, and then it is noted. -/
theorem take_eq_ok_iff (hfair : g.Fair) : take g r o argument? = .ok r' ↔
    MayTake g (o, argument?) ∧ (∀ key ∈ r.given.map (·.1), key ∉ g.rivals o.key) ∧
      r' = { r with given := r.given ++ [(o.key, argument?)] } := by
  rw [← rival?_eq_none_iff hfair, take_eq, MayTake]
  cases o.problem? argument? <;> cases rival? g r o <;> by_cases hhelp : o.key = g.help <;> simp [hhelp, eq_comm]

omit [DecidableEq κ] in
/-- One more option keeps the peace if it is no rival of those in front. -/
theorem peace_concat_iff (hfair : g.Fair) {given : List κ} {key : κ} :
    Peace g (given ++ [key]) ↔ Peace g given ∧ ∀ other ∈ given, other ∉ g.rivals key := by
  simp only [Peace, List.mem_append, List.mem_singleton]
  constructor
  · exact fun h => ⟨fun a ha b hb => h a (.inl ha) b (.inl hb), fun a ha => h a (.inl ha) key (.inr rfl)⟩
  · rintro ⟨hgiven, hkey⟩ a (ha | rfl) b (hb | rfl)
    · exact hgiven a ha b hb
    · exact hkey a ha
    · exact fun h => hkey b hb (hfair.symm _ _ h)
    · exact hfair.irrefl _

/-- Options are taken if each of them may be taken and no two are rivals. -/
theorem takeAll_eq_ok_iff (hfair : g.Fair) (hpeace : Peace g (r.given.map (·.1))) : takeAll g r os = .ok r' ↔
    (∀ x ∈ os, MayTake g x) ∧ Peace g (r.given.map (·.1) ++ keys os) ∧ r' = { r with given := r.given ++ noted os } := by
  induction os generalizing r with
  | nil => simp [takeAll, keys, noted, hpeace, pure, Except.pure, eq_comm]
  | cons x os ih =>
    obtain ⟨o, argument?⟩ := x
    have hcons : takeAll g r ((o, argument?) :: os) = take g r o argument? >>= fun r => takeAll g r os := by
      rw [takeAll, List.foldlM_cons]
      rfl
    have hkeys : r.given.map (·.1) ++ [o.key] ++ keys os = r.given.map (·.1) ++ keys ((o, argument?) :: os) := by simp [keys]
    rw [hcons, bind_eq_ok_iff]
    constructor
    · rintro ⟨r₁, htake, hrest⟩
      obtain ⟨hmay, hnone, rfl⟩ := (take_eq_ok_iff hfair).mp htake
      obtain ⟨hall, hpeace', rfl⟩ := (ih (by simpa using (peace_concat_iff hfair).mpr ⟨hpeace, hnone⟩)).mp hrest
      refine ⟨List.forall_mem_cons.mpr ⟨hmay, hall⟩, ?_, by simp [noted]⟩
      simpa [keys] using hpeace'
    · rintro ⟨hall, hpeace', rfl⟩
      obtain ⟨hmay, hall⟩ := List.forall_mem_cons.mp hall
      rw [← hkeys] at hpeace'
      have hnone := (peace_concat_iff hfair).mp fun a ha b hb =>
        hpeace' a (List.mem_append_left _ ha) b (List.mem_append_left _ hb)
      refine ⟨{ r with given := r.given ++ [(o.key, argument?)] }, (take_eq_ok_iff hfair).mpr ⟨hmay, hnone.2, rfl⟩, ?_⟩
      refine (ih (by simpa using (peace_concat_iff hfair).mpr hnone)).mpr ⟨hall, by simpa using hpeace', by simp [noted]⟩

theorem takeAll_append : takeAll g r (os ++ os') = takeAll g r os >>= fun r => takeAll g r os' := List.foldlM_append

theorem take_same (h : take g r o argument? = .ok r') : r' = { r with given := r.given ++ [(o.key, argument?)] } := by
  rw [take_eq] at h
  cases hproblem : o.problem? argument? <;> cases hrival : rival? g r o <;> by_cases hhelp : o.key = g.help <;>
    simp_all

/-- Options that are taken are noted, and nothing else of a reading changes. -/
theorem takeAll_same (h : takeAll g r os = .ok r') : r' = { r with given := r.given ++ noted os } := by
  induction os generalizing r with
  | nil => cases h; simp [noted]
  | cons x os ih =>
    rw [takeAll, List.foldlM_cons] at h
    obtain ⟨r₁, htake, hrest⟩ := bind_eq_ok_iff.mp h
    rw [ih hrest, take_same htake]
    simp [noted]

/-! ## One step -/

/-- The option of a bundle that waits for an argument in the next word. -/
def Bundle.waiting? (b : Bundle κ) : Option (Opt κ) := b.last?.filter (·.argument?.isSome)

/-- The options of a bundle, with an argument for the last one. -/
def Bundle.taken (b : Bundle κ) (argument? : Option String) : List (Opt κ × Option String) :=
  b.complete ++ (b.last?.map fun o => (o, argument?)).toList

/-- More words are left over. -/
def Reading.leave (r : Reading κ) (words : List String) : Reading κ := { r with leftOver := r.leftOver ++ words }

omit [DecidableEq κ] in
@[simp] theorem Reading.leave_nil (r : Reading κ) : r.leave [] = r := by simp [Reading.leave]

/-- A word that no option has is left over. -/
theorem walk_unknown (word : String) :
    walk g (fuel + 1) ((word, .unknown) :: rest) r = walk g fuel rest (r.leave [word]) := by
  rw [walk, if_pos (by simp [isOption])]
  rfl

/-- An option is taken with its bundle, and with the next plain words as far as it waits for them. -/
theorem walk_option (word : String) (m : Mention κ) : walk g (fuel + 1) ((word, .option m) :: rest) r = (do
    let b ← bundle g m
    match b.waiting?, plain? rest with
    | none, _ => takeAll g (r.leave b.leftOver) (b.taken none) >>= walk g fuel rest
    | some _, some argument => takeAll g (r.leave b.leftOver) (b.taken (some argument)) >>= walk g fuel rest.tail
    | some o, none => .error (g.refuseAt o "expected one argument")) := by
  rw [walk, if_pos (by simp [isOption])]
  refine congrArg _ (funext fun b => ?_)
  unfold Bundle.waiting? Bundle.taken
  cases hlast : b.last? with
  | none => simp [Reading.leave]
  | some o =>
    cases hargument : o.argument? with
    | none => simp [Option.filter, hargument, Reading.leave]
    | some check =>
      cases plain? rest
      · simp [Option.filter, hargument]
        rfl
      · simp [Option.filter, hargument, Reading.leave]

/-- Words that stand for themselves fill places, or are left over. -/
theorem walk_settled (hx : isOption x = false) (hany : (x :: rest).any isOption = true) : walk g (fuel + 1) (x :: rest) r =
    if (reach r (x :: rest)).2.length < (x :: rest).length then walk g fuel (reach r (x :: rest)).2 (reach r (x :: rest)).1
    else
      let skipped := (x :: rest).takeWhile fun w => !isOption w
      walk g fuel ((x :: rest).drop skipped.length) ((reach r (x :: rest)).1.leave (skipped.map (·.1))) := by
  obtain ⟨word, role⟩ := x
  cases role with
  | plain => simp only [walk, hany, if_true, Reading.leave]
  | separator => simp only [walk, hany, if_true, Reading.leave]
  | option m => cases hx
  | unknown => cases hx

/-- Behind the last option the words go to the places, and what they do not need is left over. -/
theorem walk_end (hany : xs.any isOption = false) : walk g (fuel + 1) xs r =
    .ok ((reach r xs).1.leave ((reach r xs).2.map (·.1))) := by
  unfold walk
  rw [if_neg (by simp [hany])]
  rfl

/-! ## Places -/

omit [DecidableEq κ] in
/-- Filling places leaves no word over by itself. -/
theorem reach_leftOver (r : Reading κ) (words : List (String × Role κ)) : (reach r words).1.leftOver = r.leftOver := by
  unfold reach
  split
  · rfl
  · rfl
  · split <;> rfl

omit [DecidableEq κ] in
/-- Separators are taken off at the front. -/
theorem splitSeparators_suffix (xs : List (String × Role κ)) : (splitSeparators xs).2 <:+ xs := by
  induction xs with
  | nil => exact List.suffix_refl _
  | cons x xs ih =>
    obtain ⟨word, role⟩ := x
    cases role with
    | separator => exact ih.trans (List.suffix_cons _ _)
    | _ => exact List.suffix_refl _

omit [DecidableEq κ] in
/-- Places are filled from the front. -/
theorem fillPlaces_suffix (n : Nat) (xs : List (String × Role κ)) : (fillPlaces n xs).2 <:+ xs := by
  induction n generalizing xs with
  | zero => exact List.suffix_refl _
  | succ n ih =>
    have hplace : (fillPlace xs).2 <:+ xs := by
      simp only [fillPlace]
      cases plain? (splitSeparators xs).2 with
      | none => exact (splitSeparators_suffix _).trans (splitSeparators_suffix _)
      | some word => exact (splitSeparators_suffix _).trans ((List.tail_suffix _).trans (splitSeparators_suffix _))
    exact (ih _).trans hplace

omit [DecidableEq κ] in
/-- Behind the words that fill places the others are as they were. -/
theorem reach_suffix (r : Reading κ) (xs : List (String × Role κ)) : (reach r xs).2 <:+ xs := by
  unfold reach
  split
  · exact List.suffix_refl _
  · exact fillPlaces_suffix _ _
  · split
    · exact List.nil_suffix
    · exact List.suffix_refl _

omit [DecidableEq κ] in
/-- Filling places may come to a command, which then takes all the words that are left. -/
theorem reach_command? (r : Reading κ) (xs : List (String × Role κ)) :
    (reach r xs).1.command? = r.command? ∨ (reach r xs).1.command? = some (xs.map (·.1)) := by
  unfold reach
  split
  · exact .inl rfl
  · exact .inl rfl
  · split
    · exact .inr rfl
    · exact .inl rfl

/-! ## What a step can do -/

/-- One step: the words and what has been read before it, and both behind it. -/
inductive Next (g : Grammar κ) : List (String × Role κ) → Reading κ → List (String × Role κ) → Reading κ → Prop where
  | unknown (word : String) {rest : List (String × Role κ)} {r : Reading κ} : Next g ((word, .unknown) :: rest) r rest (r.leave [word])
  | complete (word : String) {m : Mention κ} {b : Bundle κ} {rest : List (String × Role κ)} {r r' : Reading κ} : bundle g m = .ok b →
      b.waiting? = none → takeAll g (r.leave b.leftOver) (b.taken none) = .ok r' → Next g ((word, .option m) :: rest) r rest r'
  | argument (word argument : String) {m : Mention κ} {b : Bundle κ} {o : Opt κ} {rest : List (String × Role κ)} {r r' : Reading κ} :
      bundle g m = .ok b → b.waiting? = some o → takeAll g (r.leave b.leftOver) (b.taken (some argument)) = .ok r' →
      Next g ((word, .option m) :: (argument, .plain) :: rest) r rest r'
  | reached {x : String × Role κ} {rest : List (String × Role κ)} {r : Reading κ} : isOption x = false →
      (reach r (x :: rest)).2.length < (x :: rest).length → Next g (x :: rest) r (reach r (x :: rest)).2 (reach r (x :: rest)).1
  | skipped {x : String × Role κ} {rest : List (String × Role κ)} {r : Reading κ} : isOption x = false →
      Next g (x :: rest) r ((x :: rest).drop ((x :: rest).takeWhile fun w => !isOption w).length)
        ((reach r (x :: rest)).1.leave (((x :: rest).takeWhile fun w => !isOption w).map (·.1)))

/-- A reading makes one more step, or it ends with words that stand for themselves. -/
theorem walk_cases (h : walk g (fuel + 1) xs r = .ok r') : (∃ ys r₁, Next g xs r ys r₁ ∧ walk g fuel ys r₁ = .ok r') ∨
    (∀ x ∈ xs, isOption x = false) ∧ r' = (reach r xs).1.leave ((reach r xs).2.map (·.1)) := by
  by_cases hany : xs.any isOption = true
  · refine .inl ?_
    have hsettled : ∀ {x : String × Role κ} {rest}, isOption x = false → xs = x :: rest →
        ∃ ys r₁, Next g xs r ys r₁ ∧ walk g fuel ys r₁ = .ok r' := by
      rintro x rest hx rfl
      rw [walk_settled hx hany] at h
      split at h
      · rename_i hless
        exact ⟨_, _, .reached hx hless, h⟩
      · exact ⟨_, _, .skipped hx, h⟩
    match xs with
    | [] => cases hany
    | (word, .unknown) :: rest =>
      rw [walk_unknown] at h
      exact ⟨_, _, .unknown word, h⟩
    | (word, .option m) :: rest =>
      rw [walk_option] at h
      obtain ⟨b, hbundle, h⟩ := bind_eq_ok_iff.mp h
      split at h
      · rename_i hwaiting
        obtain ⟨r₁, htake, h⟩ := bind_eq_ok_iff.mp h
        exact ⟨_, _, .complete word hbundle hwaiting htake, h⟩
      · rename_i hwaiting hplain
        obtain ⟨r₁, htake, h⟩ := bind_eq_ok_iff.mp h
        match rest, hplain with
        | (argument, .plain) :: rest, rfl => exact ⟨_, _, .argument word argument hbundle hwaiting htake, h⟩
      · cases h
    | (word, .plain) :: rest => exact hsettled rfl rfl
    | (word, .separator) :: rest => exact hsettled rfl rfl
  · rw [walk_end (Bool.eq_false_iff.mpr hany)] at h
    exact .inr ⟨by simpa using hany, (Except.ok.inj h).symm⟩

/-- A step only takes words away. -/
theorem Next.subset (h : Next g xs r ys r') : ys ⊆ xs := by
  cases h with
  | unknown word => exact List.subset_cons_self _ _
  | complete word _ _ _ => exact List.subset_cons_self _ _
  | argument word argument _ _ _ => exact List.Subset.trans (List.subset_cons_self _ _) (List.subset_cons_self _ _)
  | reached _ _ => exact (reach_suffix _ _).subset
  | skipped _ => exact List.drop_subset _ _

/-- A step keeps the words that are left over, and may add some. -/
theorem Next.leftOver (h : Next g xs r ys r') : r.leftOver <+: r'.leftOver := by
  cases h with
  | unknown word => exact List.prefix_append _ _
  | complete word _ _ htake =>
    rw [takeAll_same htake]
    exact List.prefix_append _ _
  | argument word argument _ _ htake =>
    rw [takeAll_same htake]
    exact List.prefix_append _ _
  | reached _ _ => exact (reach_leftOver _ _).symm ▸ List.prefix_refl _
  | skipped _ => exact (reach_leftOver _ _).symm ▸ List.prefix_append _ _

/-- A step keeps the command, or finds it with all the words before it. -/
theorem Next.command? (h : Next g xs r ys r') : r'.command? = r.command? ∨ r'.command? = some (xs.map (·.1)) := by
  cases h with
  | unknown word => exact .inl rfl
  | complete word _ _ htake =>
    rw [takeAll_same htake]
    exact .inl rfl
  | argument word argument _ _ htake =>
    rw [takeAll_same htake]
    exact .inl rfl
  | reached _ _ => exact reach_command? _ _
  | skipped _ => exact reach_command? _ _

/-- What is left over stays so. -/
theorem walk_leftOver (h : walk g fuel xs r = .ok r') : r.leftOver <+: r'.leftOver := by
  induction fuel generalizing xs r with
  | zero =>
    cases h
    exact List.prefix_refl _
  | succ fuel ih =>
    rcases walk_cases h with ⟨ys, r₁, hnext, h⟩ | ⟨-, rfl⟩
    · exact hnext.leftOver.trans (ih h)
    · exact (reach_leftOver _ _).symm ▸ List.prefix_append _ _

/-- A command is one of the words, with others behind it. -/
theorem walk_command? (h : walk g fuel xs r = .ok r') :
    r'.command? = r.command? ∨ ∃ ys, ys ⊆ xs ∧ r'.command? = some (ys.map (·.1)) := by
  induction fuel generalizing xs r with
  | zero =>
    cases h
    exact .inl rfl
  | succ fuel ih =>
    rcases walk_cases h with ⟨ys, r₁, hnext, h⟩ | ⟨-, rfl⟩
    · rcases ih h with hsame | ⟨zs, hzs, hcommand⟩
      · exact (hsame ▸ hnext.command?).imp_right fun heq => ⟨xs, List.Subset.refl _, heq⟩
      · exact .inr ⟨zs, List.Subset.trans hzs hnext.subset, hcommand⟩
    · exact (reach_command? _ _).imp_right fun heq => ⟨xs, List.Subset.refl _, heq⟩

/-! ## Stops -/

/-- A word asks for help. -/
def AsksHelp (g : Grammar κ) (x : String × Role κ) : Prop :=
  ∃ m b, x.2 = .option m ∧ bundle g m = .ok b ∧ g.help ∈ keys (b.taken none)

/-- A program refuses its words. -/
def Grammar.Refuses (g : Grammar κ) (stop : Stop) : Prop := ∃ message, stop = g.refuse message

/-- A program refuses its words, or shows help because one of them asks for it. -/
def Stopped (g : Grammar κ) (xs : List (String × Role κ)) (stop : Stop) : Prop :=
  g.Refuses stop ∨ stop = .help g.usage ∧ ∃ x ∈ xs, AsksHelp g x

omit [DecidableEq κ] in
/-- What stops a line stops every line that holds its words. -/
theorem Stopped.mono (h : Stopped g xs stop) (hsub : xs ⊆ ys) : Stopped g ys stop :=
  h.imp_right fun ⟨hstop, x, hx, hasks⟩ => ⟨hstop, x, hsub hx, hasks⟩

omit [DecidableEq κ] in
/-- The options of a bundle do not depend on the argument of the last one. -/
theorem keys_taken (b : Bundle κ) (argument? : Option String) : keys (b.taken argument?) = keys (b.taken none) := by
  cases hlast : b.last? <;> simp [keys, Bundle.taken, hlast]

omit [DecidableEq κ] in
/-- A word without a role is refused by the grammar. -/
theorem roleOf_error {word : String} (h : g.roleOf word = .error stop) : g.Refuses stop := by
  have hinexact : g.inexactRole word = .error stop → g.Refuses stop := by
    unfold Grammar.inexactRole
    split
    · rintro ⟨⟩
    · rintro ⟨⟩
    · rintro ⟨⟩
      exact ⟨_, rfl⟩
  unfold Grammar.roleOf at h
  split at h
  · split at h
    · cases h
    · split at h
      · split at h
        · cases h
        · exact hinexact h
      · exact hinexact h
  · cases h

omit [DecidableEq κ] in
/-- A line without roles has a word that the grammar refuses. -/
theorem roles_error {words : List String} (h : g.roles words = .error stop) : g.Refuses stop := by
  induction words with
  | nil => cases h
  | cons word words ih =>
    rw [Grammar.roles] at h
    split at h
    · cases h
    · rcases bind_eq_error_iff.mp h with hrole | ⟨role, -, h⟩
      · exact roleOf_error hrole
      · rcases bind_eq_error_iff.mp h with hroles | ⟨xs, -, h⟩
        · exact ih hroles
        · cases h

omit [DecidableEq κ] in
/-- Letters that cannot be spread are refused by the grammar. -/
theorem spread_error {joined : Bool} {letters : List Char} (h : spread g o joined letters = .error stop) : g.Refuses stop := by
  fun_induction spread g o joined letters with
  | case1 | case3 | case5 | case6 => cases h
  | case2 | case4 =>
    cases h
    exact ⟨_, rfl⟩
  | case7 _ _ _ _ _ _ _ _ ih => exact ih (map_eq_error_iff.mp h)
  | case8 _ _ _ _ _ _ _ _ _ _ ih => exact ih (map_eq_error_iff.mp h)

omit [DecidableEq κ] in
/-- A mention without a bundle is refused by the grammar. -/
theorem bundle_error {m : Mention κ} (h : bundle g m = .error stop) : g.Refuses stop := by
  unfold bundle at h
  split at h
  · exact spread_error h
  · cases h

/-- Options are not taken because the grammar refuses, or because one of them asks for help. -/
theorem takeAll_error (h : takeAll g r os = .error stop) : g.Refuses stop ∨ stop = .help g.usage ∧ g.help ∈ keys os := by
  induction os generalizing r with
  | nil => cases h
  | cons x os ih =>
    rw [takeAll, List.foldlM_cons] at h
    rcases bind_eq_error_iff.mp h with htake | ⟨r₁, -, hrest⟩
    · rw [take_eq] at htake
      split at htake
      · cases htake
        exact .inl ⟨_, rfl⟩
      · cases htake
        exact .inl ⟨_, rfl⟩
      · split at htake
        · rename_i hhelp
          cases htake
          exact .inr ⟨rfl, hhelp ▸ List.mem_cons_self⟩
        · cases htake
    · rcases ih hrest with hrefuses | ⟨hstop, hmem⟩
      · exact .inl hrefuses
      · exact .inr ⟨hstop, List.mem_cons_of_mem _ hmem⟩

/-- A reading that stops refuses the words, or shows help because one of them asks for it. -/
theorem walk_error (h : walk g fuel xs r = .error stop) : Stopped g xs stop := by
  induction fuel generalizing xs r with
  | zero => cases h
  | succ fuel ih =>
    have hsettled : ∀ {x : String × Role κ} {rest}, isOption x = false → walk g (fuel + 1) (x :: rest) r = .error stop →
        Stopped g (x :: rest) stop := by
      intro x rest hx h
      by_cases hany : (x :: rest).any isOption = true
      · rw [walk_settled hx hany] at h
        split at h
        · exact (ih h).mono (reach_suffix _ _).subset
        · exact (ih h).mono (List.drop_subset _ _)
      · cases h.symm.trans (walk_end (Bool.eq_false_iff.mpr hany))
    match xs with
    | [] => cases h.symm.trans (walk_end rfl)
    | (word, .unknown) :: rest => exact (ih ((walk_unknown word).symm.trans h)).mono (List.subset_cons_self _ _)
    | (word, .option m) :: rest =>
      rw [walk_option] at h
      rcases bind_eq_error_iff.mp h with hbundle | ⟨b, hbundle, h⟩
      · exact .inl (bundle_error hbundle)
      -- What is taken is named by the bundle, whatever the argument of its last option is.
      have htaken : ∀ {argument? ys}, ys ⊆ rest → takeAll g (r.leave b.leftOver) (b.taken argument?) >>= walk g fuel ys = .error stop →
          Stopped g ((word, .option m) :: rest) stop := by
        intro argument? ys hsub h
        rcases bind_eq_error_iff.mp h with htake | ⟨r₁, -, hwalk⟩
        · refine (takeAll_error htake).imp_right fun ⟨hstop, hmem⟩ => ⟨hstop, _, List.mem_cons_self, m, b, rfl, hbundle, ?_⟩
          exact keys_taken b argument? ▸ hmem
        · exact (ih hwalk).mono (List.Subset.trans hsub (List.subset_cons_self _ _))
      split at h
      · exact htaken (List.Subset.refl _) h
      · exact htaken (List.tail_suffix _).subset h
      · cases h
        exact .inl ⟨_, rfl⟩
    | (word, .plain) :: rest => exact hsettled rfl h
    | (word, .separator) :: rest => exact hsettled rfl h

/-- A line is not read because the grammar refuses a word, or because something in it stops the reading. -/
theorem read_error {places : Places} {words : List String} (h : read g places words = .error stop) :
    g.Refuses stop ∨ ∃ xs, g.roles words = .ok xs ∧ Stopped g xs stop := by
  rcases bind_eq_error_iff.mp h with hroles | ⟨xs, hroles, hwalk⟩
  · exact .inl (roles_error hroles)
  · exact .inr ⟨xs, hroles, walk_error hwalk⟩

end

end IconForge.CommandLine
