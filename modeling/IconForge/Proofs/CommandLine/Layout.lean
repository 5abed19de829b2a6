import IconForge.Proofs.CommandLine.Step
import Mathlib.Data.List.TakeWhile

/-!
# How words are laid out

A program takes words that are laid out as follows: options, each in one word or with its argument in the next one, then one row of words
for its places, then options again. Words are read without a rest exactly if they are laid out so, every option may be taken, and no two of
them are rivals (`read_eq_ok_iff`). A program with commands takes options up to the command (`read_command_eq_ok_iff`).
-/

namespace IconForge.CommandLine

section
variable {κ : Type} [DecidableEq κ] {g : Grammar κ} {r r' : Reading κ} {o : Opt κ} {os os' : List (Opt κ × Option String)}
  {argument? : Option String} {x : String × Role κ} {xs ys rest row : List (String × Role κ)} {fuel n : Nat}

/-! ## Options in words -/

/-- Words that say complete options: one word, or one and the argument of its last option. -/
inductive Piece (g : Grammar κ) : List (String × Role κ) → List (Opt κ × Option String) → Prop where
  | complete (word : String) {m : Mention κ} {b : Bundle κ} : bundle g m = .ok b → b.leftOver = [] → b.waiting? = none →
      Piece g [(word, .option m)] (b.taken none)
  | argument (word argument : String) {m : Mention κ} {b : Bundle κ} {o : Opt κ} : bundle g m = .ok b → b.leftOver = [] →
      b.waiting? = some o → Piece g [(word, .option m), (argument, .plain)] (b.taken (some argument))

/-- Words that say options, piece by piece. -/
inductive Pieces (g : Grammar κ) : List (String × Role κ) → List (Opt κ × Option String) → Prop where
  | nil : Pieces g [] []
  | cons {ws xs : List (String × Role κ)} {os os' : List (Opt κ × Option String)} : Piece g ws os → Pieces g xs os' →
      Pieces g (ws ++ xs) (os ++ os')

omit [DecidableEq κ] in
/-- A piece of a command line has a word at least. -/
theorem Piece.length_pos (h : Piece g xs os) : 0 < xs.length := by
  cases h <;> simp

omit [DecidableEq κ] in
theorem Pieces.append (h : Pieces g xs os) (h' : Pieces g ys os') : Pieces g (xs ++ ys) (os ++ os') := by
  induction h with
  | nil => exact h'
  | cons hpiece _ ih =>
    rw [List.append_assoc, List.append_assoc]
    exact .cons hpiece ih

/-- A piece is taken in one step. -/
theorem walk_piece (h : Piece g xs os) : walk g (fuel + 1) (xs ++ rest) r = takeAll g r os >>= walk g fuel rest := by
  cases h with
  | complete word hbundle hleft hwaiting =>
    rw [List.singleton_append, walk_option, hbundle]
    simp only [bind, Except.bind, hwaiting, hleft, Reading.leave_nil]
  | argument word argument hbundle hleft hwaiting =>
    rw [List.cons_append, walk_option, hbundle]
    simp only [bind, Except.bind, hwaiting, hleft, Reading.leave_nil, List.singleton_append, plain?, List.tail_cons]

/-- Pieces are taken one after the other. -/
theorem walk_pieces (h : Pieces g xs os) (hfuel : (xs ++ rest).length < fuel) :
    ∃ fuel', rest.length < fuel' ∧ ∀ r, walk g fuel (xs ++ rest) r = takeAll g r os >>= walk g fuel' rest := by
  induction h generalizing fuel with
  | nil => exact ⟨fuel, hfuel, fun r => rfl⟩
  | @cons ws xs os os' hpiece _ ih =>
    obtain ⟨fuel, rfl⟩ := Nat.exists_eq_add_one_of_ne_zero (Nat.ne_of_gt (Nat.lt_of_le_of_lt (Nat.zero_le _) hfuel))
    have hpos := hpiece.length_pos
    obtain ⟨fuel', hfuel', hrest⟩ := @ih fuel (by simp only [List.length_append] at hfuel ⊢; omega)
    refine ⟨fuel', hfuel', fun r => ?_⟩
    rw [List.append_assoc, walk_piece hpiece, takeAll_append, bind_assoc]
    exact congrArg _ (funext hrest)

/-! ## Nothing left over -/

/-- A step behind which nothing is left over takes a piece, or it fills places. -/
theorem Next.cases (h : Next g xs r ys r') (hrest : r'.leftOver = []) :
    (∃ ws os, Piece g ws os ∧ xs = ws ++ ys ∧ takeAll g r os = .ok r') ∨
      (∀ x ∈ xs.head?, isOption x = false) ∧ (reach r xs).2.length < xs.length ∧ ys = (reach r xs).2 ∧ r' = (reach r xs).1 := by
  cases h with
  | unknown word => simp [Reading.leave] at hrest
  | @complete word m b rest r r' hbundle hwaiting htake =>
    have hleft := takeAll_same htake ▸ hrest
    obtain ⟨-, hleft⟩ : r.leftOver = [] ∧ b.leftOver = [] := by simpa [Reading.leave] using hleft
    rw [hleft, Reading.leave_nil] at htake
    exact .inl ⟨_, _, .complete word hbundle hleft hwaiting, rfl, htake⟩
  | @argument word argument m b o rest r r' hbundle hwaiting htake =>
    have hleft := takeAll_same htake ▸ hrest
    obtain ⟨-, hleft⟩ : r.leftOver = [] ∧ b.leftOver = [] := by simpa [Reading.leave] using hleft
    rw [hleft, Reading.leave_nil] at htake
    exact .inl ⟨_, _, .argument word argument hbundle hleft hwaiting, rfl, htake⟩
  | reached hx hless => exact .inr ⟨by simpa using hx, hless, rfl, rfl⟩
  | skipped hx => simp [Reading.leave, hx] at hrest

/-- Words that are left over stay so: a line that leaves none over has left none over at any step. -/
theorem leftOver_eq_nil (h : walk g fuel xs r = .ok r') (hrest : r'.leftOver = []) : r.leftOver = [] :=
  List.prefix_nil.mp (hrest ▸ walk_leftOver h)

/-- If nothing is left over, words are pieces up to a word that stands for itself. -/
theorem exists_pieces (h : walk g fuel xs r = .ok r') (hfuel : xs.length < fuel) (hrest : r'.leftOver = []) :
    ∃ ys zs os, Pieces g ys os ∧ xs = ys ++ zs ∧ ∀ x ∈ zs.head?, isOption x = false := by
  induction fuel generalizing xs r with
  | zero => cases hfuel
  | succ fuel ih =>
    rcases walk_cases h with ⟨rest, r₁, hnext, hwalk⟩ | ⟨hnone, -⟩
    · rcases hnext.cases (leftOver_eq_nil hwalk hrest) with ⟨ws, os, hpiece, rfl, -⟩ | ⟨hhead, -⟩
      · have hpos := hpiece.length_pos
        obtain ⟨ys, zs, os', hpieces, rfl, hhead⟩ := ih hwalk (by simp only [List.length_append] at hfuel; omega)
        exact ⟨ws ++ ys, zs, os ++ os', .cons hpiece hpieces, (List.append_assoc _ _ _).symm, hhead⟩
      · exact ⟨[], xs, [], .nil, rfl, hhead⟩
    · exact ⟨[], xs, [], .nil, rfl, fun x hx => hnone x (List.mem_of_mem_head? hx)⟩

omit [DecidableEq κ] in
/-- Words that fill places leave none to be reached. -/
theorem places?_reach (h : (reach r xs).2.length < xs.length) : (reach r xs).1.places? = none := by
  cases hplaces : r.places? with
  | none => simp [reach, hplaces] at h
  | some places =>
    cases places with
    | optional count => simp [reach, hplaces]
    | command =>
      cases hplain : (plain? (splitSeparators xs).2).isSome with
      | false => simp [reach, hplaces, hplain] at h
      | true => simp [reach, hplaces, hplain]

theorem walk_nil (hplaces : r.places? = none) : walk g fuel [] r = .ok r := by
  cases fuel with
  | zero => rfl
  | succ fuel =>
    rw [walk_end rfl]
    simp [reach, hplaces]

/-- If nothing is left over, words that stand for themselves fill places, and the reading goes on behind them. -/
theorem walk_reach (hx : isOption x = false) (h : walk g (fuel + 1) (x :: rest) r = .ok r') (hrest : r'.leftOver = []) :
    (reach r (x :: rest)).2.length < (x :: rest).length ∧
      walk g fuel (reach r (x :: rest)).2 (reach r (x :: rest)).1 = .ok r' := by
  rcases walk_cases h with ⟨ys, r₁, hnext, hwalk⟩ | ⟨-, rfl⟩
  · rcases hnext.cases (leftOver_eq_nil hwalk hrest) with ⟨ws, os, hpiece, heq, -⟩ | ⟨-, hless, rfl, rfl⟩
    · cases hpiece <;> cases heq <;> cases hx
    · exact ⟨hless, hwalk⟩
  · have hbehind : (reach r (x :: rest)).2 = [] := List.map_eq_nil_iff.mp (List.append_eq_nil_iff.mp hrest).2
    have hplaces := @places?_reach κ r (x :: rest) (by simp [hbehind])
    rw [hbehind, walk_nil hplaces]
    exact ⟨Nat.zero_lt_succ _, by simp⟩

/-- If nothing is left over and there are no places, all words are pieces. -/
theorem pieces_of_walk (h : walk g fuel xs r = .ok r') (hfuel : xs.length < fuel) (hplaces : r.places? = none)
    (hrest : r'.leftOver = []) : ∃ os, Pieces g xs os := by
  obtain ⟨ys, zs, os, hpieces, rfl, hhead⟩ := exists_pieces h hfuel hrest
  obtain ⟨fuel', hfuel', hwalk⟩ := @walk_pieces κ _ g os ys zs fuel hpieces hfuel
  rw [hwalk] at h
  obtain ⟨r₁, htake, h⟩ := bind_eq_ok_iff.mp h
  cases zs with
  | nil => exact ⟨os, by simpa using hpieces⟩
  | cons z zs =>
    obtain ⟨fuel', rfl⟩ := Nat.exists_eq_add_one_of_ne_zero (Nat.ne_of_gt (Nat.lt_of_le_of_lt (Nat.zero_le _) hfuel'))
    have hnone : r₁.places? = none := by rw [takeAll_same htake]; exact hplaces
    have hless := (walk_reach (hhead z rfl) h hrest).1
    simp [reach, hnone] at hless

/-! ## A row for the places -/

omit [DecidableEq κ] in
/-- The separators before an option are found without a look at what follows it. -/
theorem splitSeparators_append (hys : ∀ y ∈ ys.head?, isOption y = true) :
    splitSeparators (xs ++ ys) = ((splitSeparators xs).1, (splitSeparators xs).2 ++ ys) := by
  induction xs with
  | nil =>
    cases ys with
    | nil => rfl
    | cons y ys =>
      obtain ⟨word, role⟩ := y
      have hy := hys (word, role) rfl
      cases role <;> first | rfl | cases hy
  | cons x xs ih =>
    obtain ⟨word, role⟩ := x
    cases role with
    | separator => simp [splitSeparators, ih]
    | _ => simp [splitSeparators]

omit [DecidableEq κ] in
/-- The plain words before an option are found without a look at what follows it. -/
theorem plain?_append (hys : ∀ y ∈ ys.head?, isOption y = true) : plain? (xs ++ ys) = plain? xs := by
  cases xs with
  | nil =>
    cases ys with
    | nil => rfl
    | cons y ys =>
      obtain ⟨word, role⟩ := y
      have hy := hys (word, role) rfl
      cases role <;> first | rfl | cases hy
  | cons x xs =>
    obtain ⟨word, role⟩ := x
    cases role <;> rfl

omit [DecidableEq κ] in
/-- Options behind a row for a place are not looked at. -/
theorem fillPlace_append (hys : ∀ y ∈ ys.head?, isOption y = true) :
    fillPlace (xs ++ ys) = ((fillPlace xs).1, (fillPlace xs).2 ++ ys) := by
  simp only [fillPlace, splitSeparators_append hys, plain?_append hys]
  cases hplain : plain? (splitSeparators xs).2 with
  | none => simp [splitSeparators_append hys]
  | some word =>
    have hne : (splitSeparators xs).2 ≠ [] := fun hnil => by simp [hnil, plain?] at hplain
    simp [List.tail_append_of_ne_nil hne, splitSeparators_append hys]

omit [DecidableEq κ] in
/-- Places are filled from the plain words before an option only. -/
theorem fillPlaces_append (hys : ∀ y ∈ ys.head?, isOption y = true) :
    fillPlaces n (xs ++ ys) = ((fillPlaces n xs).1, (fillPlaces n xs).2 ++ ys) := by
  induction n generalizing xs with
  | zero => rfl
  | succ n ih => simp only [fillPlaces, fillPlace_append hys, ih]

/-- Words are laid out for some places: options, one row of words for the places, and options behind it. -/
inductive Laid (g : Grammar κ) (n : Nat) : List (String × Role κ) → List (Opt κ × Option String) → List (Option String) → Prop where
  | intro {before row behind : List (String × Role κ)} {os os' : List (Opt κ × Option String)} : Pieces g before os →
      (∀ x ∈ row, isOption x = false) → (fillPlaces n row).2 = [] → Pieces g behind os' →
      Laid g n (before ++ row ++ behind) (os ++ os') (fillPlaces n row).1

omit [DecidableEq κ] in
/-- A line in pieces begins with an option. -/
theorem Pieces.head?_isOption (h : Pieces g xs os) : ∀ x ∈ xs.head?, isOption x = true := by
  cases h with
  | nil => simp
  | cons hpiece _ => cases hpiece <;> simp [isOption]

omit [DecidableEq κ] in
theorem Pieces.eq_nil (h : Pieces g [] os) : os = [] := by
  generalize hxs : ([] : List (String × Role κ)) = xs at h
  cases h with
  | nil => rfl
  | cons hpiece _ => exact absurd hpiece.length_pos (by simp [(List.append_eq_nil_iff.mp hxs.symm).1])

omit [DecidableEq κ] in
/-- A line in pieces is laid out with no place filled. -/
theorem Laid.of_pieces (h : Pieces g xs os) : Laid g 0 xs os [] := by
  have hlaid : Laid g 0 (xs ++ [] ++ []) (os ++ []) (fillPlaces 0 ([] : List (String × Role κ))).1 := .intro h (by simp) rfl .nil
  rw [List.append_nil, List.append_nil, List.append_nil] at hlaid
  exact hlaid

omit [DecidableEq κ] in
/-- A line that is laid out with no place filled consists of pieces. -/
theorem Laid.pieces {filled : List (Option String)} (h : Laid g 0 xs os filled) : Pieces g xs os := by
  cases h with
  | @intro before row behind os os' hbefore hrow hfill hbehind =>
    obtain rfl : row = [] := hfill
    rw [List.append_nil]
    exact hbefore.append hbehind

/-- An option is one of a bundle of which all options are there. -/
def Bundled (g : Grammar κ) (xs : List (String × Role κ)) (os : List (Opt κ × Option String)) (x : Opt κ × Option String) : Prop :=
  ∃ word m b argument?, (word, .option m) ∈ xs ∧ bundle g m = .ok b ∧ b.leftOver = [] ∧ x ∈ b.taken argument? ∧ b.taken argument? ⊆ os

omit [DecidableEq κ] in
/-- An option of a bundle stays one in a longer line. -/
theorem Bundled.mono {x : Opt κ × Option String} (h : Bundled g xs os x) (hxs : xs ⊆ ys) (hos : os ⊆ os') : Bundled g ys os' x := by
  obtain ⟨word, m, b, argument?, hmem, hbundle, hleft, hx, hsub⟩ := h
  exact ⟨word, m, b, argument?, hxs hmem, hbundle, hleft, hx, List.Subset.trans hsub hos⟩

omit [DecidableEq κ] in
/-- Every option of a line in pieces comes from a bundle of that line. -/
theorem Pieces.bundled (h : Pieces g xs os) : ∀ x ∈ os, Bundled g xs os x := by
  induction h with
  | nil => simp
  | cons hpiece _ ih =>
    intro x hx
    rcases List.mem_append.mp hx with hx | hx
    · refine Bundled.mono ?_ (List.subset_append_left _ _) (List.subset_append_left _ _)
      cases hpiece with
      | complete word hbundle hleft _ => exact ⟨word, _, _, none, List.mem_cons_self, hbundle, hleft, hx, List.Subset.refl _⟩
      | argument word argument hbundle hleft _ =>
        exact ⟨word, _, _, some argument, List.mem_cons_self, hbundle, hleft, hx, List.Subset.refl _⟩
    · exact (ih x hx).mono (List.subset_append_right _ _) (List.subset_append_right _ _)

omit [DecidableEq κ] in
/-- The options of words that are laid out come in bundles. -/
theorem Laid.bundled {filled : List (Option String)} (h : Laid g n xs os filled) : ∀ x ∈ os, Bundled g xs os x := by
  cases h with
  | intro hbefore _ _ hbehind =>
    intro x hx
    rcases List.mem_append.mp hx with hx | hx
    · exact (hbefore.bundled x hx).mono (by simp) (List.subset_append_left _ _)
    · exact (hbehind.bundled x hx).mono (by simp) (List.subset_append_right _ _)

omit [DecidableEq κ] in
/-- The options of a bundle are among those of its line. -/
theorem Pieces.keys_bundle_subset (h : Pieces g xs os) {word : String} {m : Mention κ} {b : Bundle κ} (hmem : (word, .option m) ∈ xs)
    (hbundle : bundle g m = .ok b) : keys (b.taken none) ⊆ keys os := by
  induction h with
  | nil => cases hmem
  | @cons ws xs os os' hpiece _ ih =>
    have happend : keys (os ++ os') = keys os ++ keys os' := List.map_append
    rw [happend]
    rcases List.mem_append.mp hmem with hmem | hmem
    · refine List.Subset.trans ?_ (List.subset_append_left _ _)
      cases hpiece with
      | complete word' hbundle' _ _ =>
        cases List.mem_singleton.mp hmem
        rw [Except.ok.inj (hbundle.symm.trans hbundle')]
        exact List.Subset.refl _
      | argument word' argument hbundle' _ _ =>
        rcases List.mem_cons.mp hmem with heq | hmem
        · cases heq
          rw [Except.ok.inj (hbundle.symm.trans hbundle'), keys_taken _ (some argument)]
          exact List.Subset.refl _
        · cases List.mem_singleton.mp hmem
    · exact List.Subset.trans (ih hmem) (List.subset_append_right _ _)

omit [DecidableEq κ] in
/-- The options of all bundles are there. -/
theorem Laid.keys_bundle_subset {filled : List (Option String)} (h : Laid g n xs os filled) {word : String} {m : Mention κ} {b : Bundle κ}
    (hmem : (word, .option m) ∈ xs) (hbundle : bundle g m = .ok b) : keys (b.taken none) ⊆ keys os := by
  cases h with
  | intro hbefore hrow _ hbehind =>
    rw [show keys (_ ++ _) = keys _ ++ keys _ from List.map_append]
    rcases List.mem_append.mp hmem with hmem | hmem
    · rcases List.mem_append.mp hmem with hmem | hmem
      · exact List.Subset.trans (hbefore.keys_bundle_subset hmem hbundle) (List.subset_append_left _ _)
      · cases hrow _ hmem
    · exact List.Subset.trans (hbehind.keys_bundle_subset hmem hbundle) (List.subset_append_right _ _)

/-- Places are filled. -/
def Reading.settle (r : Reading κ) (filled : List (Option String)) : Reading κ := { r with filled, places? := none }

/-- Places that have not been reached yet. -/
def Reading.Awaits (r : Reading κ) (n : Nat) : Prop := r.filled = [] ∧ r.places? = if n = 0 then none else some (.optional n)

/-- Options are taken alike before and after the places are filled. -/
theorem takeAll_settle (filled : List (Option String)) :
    takeAll g (r.settle filled) os = (takeAll g r os).map (·.settle filled) := by
  induction os generalizing r with
  | nil => rfl
  | cons x os ih =>
    have htake : take g (r.settle filled) x.1 x.2 = (take g r x.1 x.2).map (·.settle filled) := by
      have hrival : rival? g (r.settle filled) x.1 = rival? g r x.1 := rfl
      rw [take_eq, take_eq, hrival]
      cases x.1.problem? x.2 <;> cases rival? g r x.1 <;> by_cases hhelp : x.1.key = g.help <;> simp [hhelp, Except.map, Reading.settle]
    simp only [takeAll, List.foldlM_cons] at ih ⊢
    rw [htake]
    cases take g r x.1 x.2 with
    | error stop => rfl
    | ok r₁ => exact ih

omit [DecidableEq κ] in
/-- A reading that awaits words for its places fills them from the next plain words. -/
theorem Reading.Awaits.reach (h : r.Awaits n) (xs : List (String × Role κ)) :
    reach r xs = (r.settle (fillPlaces n xs).1, (fillPlaces n xs).2) := by
  obtain ⟨given, filled, command?, leftOver, places?⟩ := r
  obtain ⟨rfl, rfl⟩ : filled = [] ∧ places? = if n = 0 then none else some (.optional n) := h
  by_cases hn : n = 0
  · subst hn
    rfl
  · simp [CommandLine.reach, hn, Reading.settle]

/-- Taking options leaves a reading waiting for the words of its places. -/
theorem Reading.Awaits.takeAll (h : r.Awaits n) (htake : takeAll g r os = .ok r') : r'.Awaits n := by
  rw [takeAll_same htake]
  exact h

/-- Words of which none is left over are laid out for the places. -/
theorem laid_of_walk (h : walk g fuel xs r = .ok r') (hfuel : xs.length < fuel) (hawaits : r.Awaits n) (hrest : r'.leftOver = []) :
    ∃ os filled, Laid g n xs os filled := by
  obtain ⟨before, zs, os, hbefore, rfl, hhead⟩ := exists_pieces h hfuel hrest
  obtain ⟨fuel', hfuel', hwalk⟩ := @walk_pieces κ _ g os before zs fuel hbefore hfuel
  rw [hwalk] at h
  obtain ⟨r₁, htake, h⟩ := bind_eq_ok_iff.mp h
  cases zs with
  | nil =>
    have hfill : (fillPlaces n ([] : List (String × Role κ))).2 = [] := List.suffix_nil.mp (fillPlaces_suffix n [])
    have hlaid : Laid g n (before ++ [] ++ []) (os ++ []) _ := .intro hbefore (by simp) hfill .nil
    exact ⟨_, _, by simpa using hlaid⟩
  | cons z zs =>
    obtain ⟨fuel', rfl⟩ := Nat.exists_eq_add_one_of_ne_zero (Nat.ne_of_gt (Nat.lt_of_le_of_lt (Nat.zero_le _) hfuel'))
    obtain ⟨hless, h⟩ := walk_reach (hhead z rfl) h hrest
    have hplaces := places?_reach hless
    rw [(hawaits.takeAll htake).reach] at hless h hplaces
    dsimp only at hless h hplaces
    obtain ⟨os', hbehind⟩ := pieces_of_walk h (by simp only [List.length_cons] at hless hfuel'; omega) hplaces hrest
    -- The row ends at the first option: what does not fit the places would stand in front of it.
    let row := (z :: zs).takeWhile fun w => !isOption w
    let behind := (z :: zs).dropWhile fun w => !isOption w
    have hsplit : z :: zs = row ++ behind := List.takeWhile_append_dropWhile.symm
    have hrow : ∀ x ∈ row, isOption x = false := fun x hx => by simpa using List.mem_takeWhile_imp hx
    have hoption : ∀ x ∈ behind.head?, isOption x = true := fun x hx => by
      have hhead := List.head?_dropWhile_not (fun w => !isOption w) (z :: zs)
      rw [show ((z :: zs).dropWhile fun w => !isOption w).head? = some x from hx] at hhead
      simpa using hhead
    rw [hsplit, fillPlaces_append hoption] at hbehind
    have hfill : (fillPlaces n row).2 = [] := by
      cases hleft : (fillPlaces n row).2 with
      | nil => rfl
      | cons x rest =>
        have hx := hrow x ((fillPlaces_suffix n row).subset (by simp [hleft]))
        rw [hleft] at hbehind
        exact absurd (hbehind.head?_isOption x rfl) (by simp [hx])
    rw [hfill, List.nil_append] at hbehind
    rw [hsplit, ← List.append_assoc]
    exact ⟨_, _, .intro hbefore hrow hfill hbehind⟩

/-- Pieces are read to their options, if there are no places. -/
theorem Pieces.walk_eq (h : Pieces g xs os) (hfuel : xs.length < fuel) (hplaces : r.places? = none) :
    walk g fuel xs r = takeAll g r os := by
  obtain ⟨fuel', -, hwalk⟩ := @walk_pieces κ _ g os xs [] fuel h (by simpa using hfuel)
  rw [List.append_nil] at hwalk
  rw [hwalk]
  cases htake : takeAll g r os with
  | error stop => rfl
  | ok r₁ => exact walk_nil (by rw [takeAll_same htake]; exact hplaces)

/-- Words that are laid out are read to their options and the places. -/
theorem Laid.walk_eq {filled : List (Option String)} (h : Laid g n xs os filled) (hfuel : xs.length < fuel) (hawaits : r.Awaits n) :
    walk g fuel xs r = (takeAll g r os).map (·.settle filled) := by
  cases h with
  | @intro before row behind os os' hbefore hrow hfill hbehind =>
    rw [List.append_assoc] at hfuel ⊢
    obtain ⟨fuel', hfuel', hwalk⟩ := @walk_pieces κ _ g os before (row ++ behind) fuel hbefore hfuel
    obtain ⟨fuel', rfl⟩ := Nat.exists_eq_add_one_of_ne_zero (Nat.ne_of_gt (Nat.lt_of_le_of_lt (Nat.zero_le _) hfuel'))
    rw [hwalk, takeAll_append]
    cases htake : takeAll g r os with
    | error stop => rfl
    | ok r₁ =>
      have hreach := (hawaits.takeAll htake).reach (row ++ behind)
      rw [fillPlaces_append hbehind.head?_isOption, hfill, List.nil_append] at hreach
      show walk g (fuel' + 1) (row ++ behind) r₁ = (takeAll g r₁ os').map _
      cases row with
      | nil =>
        obtain ⟨fuel'', hfuel'', hwalk'⟩ := @walk_pieces κ _ g os' behind [] (fuel' + 1) hbehind (by simpa using hfuel')
        obtain ⟨fuel'', rfl⟩ := Nat.exists_eq_add_one_of_ne_zero (Nat.ne_of_gt hfuel'')
        rw [List.append_nil] at hwalk'
        rw [List.nil_append, hwalk']
        cases htake' : takeAll g r₁ os' with
        | error stop => rfl
        | ok r₂ =>
          have hend := ((hawaits.takeAll htake).takeAll htake').reach []
          rw [hfill] at hend
          show walk g (fuel'' + 1) [] r₂ = .ok _
          rw [walk_end rfl, hend]
          simp
      | cons x row =>
        have hx := hrow x List.mem_cons_self
        by_cases hany : (x :: (row ++ behind)).any isOption = true
        · rw [List.cons_append] at hreach ⊢
          rw [walk_settled hx hany, hreach, if_pos (by simp only [List.length_cons, List.length_append]; omega),
            hbehind.walk_eq (by simp only [List.length_append, List.length_cons] at hfuel'; omega) rfl, takeAll_settle]
        · have hnil : behind = [] := by
            cases behind with
            | nil => rfl
            | cons y behind => exact absurd (by simp [hbehind.head?_isOption y rfl]) hany
          subst hnil
          rw [walk_end (by simpa using hany), hreach, hbehind.eq_nil]
          simp [takeAll, Except.map, pure, Except.pure]

/-! ## Reading -/

/-- What has been read before the first word: nothing. -/
def Reading.start (places? : Option Places) : Reading κ := ⟨[], [], none, [], places?⟩

/-- A fresh reading takes options exactly when each may be taken and no two are rivals. -/
theorem takeAll_start_eq_ok_iff (hfair : g.Fair) {places? : Option Places} : takeAll g (.start places?) os = .ok r' ↔
    (∀ x ∈ os, MayTake g x) ∧ Peace g (keys os) ∧ r' = ⟨noted os, [], none, [], places?⟩ := by
  have hpeace : Peace g ((Reading.start places? : Reading κ).given.map (·.1)) := by simp [Peace, Reading.start]
  rw [takeAll_eq_ok_iff hfair hpeace]
  simp [Reading.start]

/-- Words that are laid out are read exactly if every option may be taken and no two are rivals. -/
theorem Laid.walk_eq_ok_iff (hfair : g.Fair) {filled : List (Option String)} (h : Laid g n xs os filled) (hfuel : xs.length < fuel)
    {places? : Option Places} (hawaits : (Reading.start places? : Reading κ).Awaits n) : walk g fuel xs (.start places?) = .ok r' ↔
      (∀ x ∈ os, MayTake g x) ∧ Peace g (keys os) ∧ r' = ⟨noted os, filled, none, [], none⟩ := by
  rw [h.walk_eq hfuel hawaits, map_eq_ok_iff]
  simp only [takeAll_start_eq_ok_iff hfair]
  constructor
  · rintro ⟨r₁, ⟨hmay, hpeace, rfl⟩, rfl⟩
    exact ⟨hmay, hpeace, rfl⟩
  · rintro ⟨hmay, hpeace, rfl⟩
    exact ⟨_, ⟨hmay, hpeace, rfl⟩, rfl⟩

omit [DecidableEq κ] in
/-- A fresh reading awaits the words of its places. -/
theorem awaits_start (n : Nat) :
    (Reading.start (if Places.optional n = .optional 0 then none else some (.optional n)) : Reading κ).Awaits n :=
  ⟨rfl, by simp [Reading.start]⟩

/-- Words that are laid out in two ways say the same. -/
theorem Laid.same (hfair : g.Fair) {filled filled' : List (Option String)} (h : Laid g n xs os filled) (h' : Laid g n xs os' filled')
    (hmay : ∀ x ∈ os, MayTake g x) (hpeace : Peace g (keys os)) :
    (∀ x ∈ os', MayTake g x) ∧ noted os' = noted os ∧ filled' = filled := by
  have hwalk := (h.walk_eq_ok_iff hfair (Nat.lt_succ_self _) (awaits_start n)).mpr ⟨hmay, hpeace, rfl⟩
  obtain ⟨hmay', -, heq⟩ := (h'.walk_eq_ok_iff hfair (Nat.lt_succ_self _) (awaits_start n)).mp hwalk
  obtain ⟨hnoted, hfilled, -⟩ := Reading.mk.inj heq
  exact ⟨hmay', hnoted.symm, hfilled.symm⟩

/-- Words are read without a rest exactly if they are laid out, every option may be taken, and no two are rivals. -/
theorem read_eq_ok_iff (hfair : g.Fair) {words : List String} :
    read g (.optional n) words = .ok r' ∧ r'.leftOver = [] ↔ ∃ xs os filled, g.roles words = .ok xs ∧ Laid g n xs os filled ∧
      (∀ x ∈ os, MayTake g x) ∧ Peace g (keys os) ∧ r' = ⟨noted os, filled, none, [], none⟩ := by
  constructor
  · rintro ⟨h, hrest⟩
    obtain ⟨xs, hroles, h⟩ := bind_eq_ok_iff.mp h
    obtain ⟨os, filled, hlaid⟩ := laid_of_walk h (by omega) (awaits_start n) hrest
    exact ⟨xs, os, filled, hroles, hlaid, (hlaid.walk_eq_ok_iff hfair (by omega) (awaits_start n)).mp h⟩
  · rintro ⟨xs, os, filled, hroles, hlaid, h⟩
    have hfuel : xs.length < 2 * xs.length + 1 := by omega
    have hwalk := (hlaid.walk_eq_ok_iff hfair hfuel (awaits_start n)).mpr h
    exact ⟨bind_eq_ok_iff.mpr ⟨xs, hroles, hwalk⟩, by rw [h.2.2]⟩

/-- A command takes all words behind it. -/
theorem walk_rest (hhead : ∀ x ∈ xs.head?, isOption x = false) (hplain : (plain? (splitSeparators xs).2).isSome = true)
    (hplaces : r.places? = some .command) :
    walk g (fuel + 1) xs r = .ok { r with command? := some (xs.map (·.1)), places? := none } := by
  have hreach : reach r xs = ({ r with command? := some (xs.map (·.1)), places? := none }, []) := by
    simp [reach, hplaces, hplain]
  cases xs with
  | nil => simp [splitSeparators, plain?] at hplain
  | cons x xs =>
    by_cases hany : (x :: xs).any isOption = true
    · rw [walk_settled (hhead x rfl) hany, hreach, if_pos (by simp), walk_nil rfl]
    · rw [walk_end (Bool.eq_false_iff.mpr hany), hreach]
      simp

/-- A command that is read without a rest is a word that stands for itself. -/
theorem plain?_of_command (h : walk g (fuel + 1) xs r = .ok r') (hhead : ∀ x ∈ xs.head?, isOption x = false)
    (hplaces : r.places? = some .command) (hnone : r.command? = none) {command : List String} (hcommand : r'.command? = some command)
    (hrest : r'.leftOver = []) : (plain? (splitSeparators xs).2).isSome = true := by
  cases hplain : (plain? (splitSeparators xs).2).isSome with
  | true => rfl
  | false =>
    have hreach : reach r xs = (r, xs) := by simp [reach, hplaces, hplain]
    cases xs with
    | nil =>
      rw [walk_end rfl, hreach] at h
      obtain rfl := Except.ok.inj h
      exact absurd (hnone.symm.trans hcommand) (by simp)
    | cons x xs =>
      have hless := (walk_reach (hhead x rfl) h hrest).1
      rw [hreach] at hless
      exact absurd hless (Nat.lt_irrefl _)

/-- Behind options the words with a command are read to it. -/
theorem read_command_eq {words : List String} (hroles : g.roles words = .ok (xs ++ ys)) (hpieces : Pieces g xs os)
    (hhead : ∀ x ∈ ys.head?, isOption x = false) (hplain : (plain? (splitSeparators ys).2).isSome = true) :
    read g .command words = (takeAll g (.start (some .command)) os).map
      fun r => { r with command? := some (ys.map (·.1)), places? := none } := by
  obtain ⟨fuel, hfuel, hwalk⟩ := @walk_pieces κ _ g os xs ys (2 * (xs ++ ys).length + 1) hpieces (by omega)
  obtain ⟨fuel, rfl⟩ := Nat.exists_eq_add_one_of_ne_zero (Nat.ne_of_gt (Nat.lt_of_le_of_lt (Nat.zero_le _) hfuel))
  unfold read
  rw [hroles]
  refine (hwalk (.start (some .command))).trans ?_
  cases htake : takeAll g (.start (some .command)) os with
  | error stop => rfl
  | ok r => exact walk_rest hhead hplain (by rw [takeAll_same htake]; rfl)

/-- Words with a command are read without a rest exactly if options come first, each of which may be taken, no two of them rivals, and
then the command. -/
theorem read_command_eq_ok_iff (hfair : g.Fair) {words command : List String} :
    read g .command words = .ok r' ∧ r'.leftOver = [] ∧ r'.command? = some command ↔
      ∃ before behind os, g.roles words = .ok (before ++ behind) ∧ Pieces g before os ∧
        (∀ x ∈ behind.head?, isOption x = false) ∧ (plain? (splitSeparators behind).2).isSome = true ∧ behind.map (·.1) = command ∧
        (∀ x ∈ os, MayTake g x) ∧ Peace g (keys os) ∧ r' = ⟨noted os, [], some command, [], none⟩ := by
  constructor
  · rintro ⟨h, hrest, hcommand⟩
    obtain ⟨xs, hroles, hwalk⟩ := bind_eq_ok_iff.mp h
    obtain ⟨before, behind, os, hbefore, rfl, hhead⟩ := exists_pieces hwalk (by omega) hrest
    obtain ⟨fuel, hfuel, heq⟩ := @walk_pieces κ _ g os before behind (2 * (before ++ behind).length + 1) hbefore (by omega)
    obtain ⟨fuel, rfl⟩ := Nat.exists_eq_add_one_of_ne_zero (Nat.ne_of_gt (Nat.lt_of_le_of_lt (Nat.zero_le _) hfuel))
    obtain ⟨r₁, htake, hwalk⟩ := bind_eq_ok_iff.mp ((heq (.start (some .command))).symm.trans hwalk)
    obtain ⟨hmay, hpeace, rfl⟩ := (takeAll_start_eq_ok_iff hfair).mp htake
    have hplain := plain?_of_command hwalk hhead rfl rfl hcommand hrest
    obtain rfl := Except.ok.inj ((walk_rest hhead hplain rfl).symm.trans hwalk)
    obtain rfl := Option.some.inj hcommand
    exact ⟨before, behind, os, hroles, hbefore, hhead, hplain, rfl, hmay, hpeace, rfl⟩
  · rintro ⟨before, behind, os, hroles, hbefore, hhead, hplain, rfl, hmay, hpeace, rfl⟩
    refine ⟨?_, rfl, rfl⟩
    rw [read_command_eq hroles hbefore hhead hplain, map_eq_ok_iff]
    exact ⟨_, (takeAll_start_eq_ok_iff hfair).mpr ⟨hmay, hpeace, rfl⟩, rfl⟩

end

end IconForge.CommandLine
