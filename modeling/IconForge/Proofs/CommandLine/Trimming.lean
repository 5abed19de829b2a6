import IconForge.Proofs.CommandLine.Wishes

/-!
# Leaving wishes out

Words say the same without their wishes for more and less logging, but for these wishes. Words that are laid out are so without wishes
(`Laid.exists_trimmed`), and they are read with their wishes if these do not clash and the other words are read without them
(`ReadTo.of_withoutWishes`).
-/

namespace IconForge.CommandLine

section
variable {g : Grammar OptionKey} {words : List String} {xs ys : List (String × Role OptionKey)} {x : String × Role OptionKey}
  {os os' : List (Opt OptionKey × Option String)} {ks : List OptionKey} {n : Nat} {filled : List (Option String)}

/-! ## Words without wishes -/

/-- A word that is not a wish, or not an option. -/
def isKept (x : String × Role OptionKey) : Bool := !isOption x || (wishes x.1).isEmpty

/-- The wishes among some words. -/
def wishesAmong (xs : List (String × Role OptionKey)) : List OptionKey := xs.flatMap fun x => if isOption x then wishes x.1 else []

/-- Options are what a grammar says that they are. -/
def Told (g : Grammar OptionKey) (xs : List (String × Role OptionKey)) : Prop :=
  ∀ x ∈ xs, isOption x = true → x.1 ≠ "--" ∧ g.roleOf x.1 = .ok x.2

/-- The roles of a line by its first word: behind a separator every word is plain. -/
theorem roles_cons_eq_ok_iff {word : String} : g.roles (word :: words) = .ok xs ↔
    (word = "--" ∧ xs = (word, .separator) :: words.map fun w => (w, .plain)) ∨
      (word ≠ "--" ∧ ∃ role, g.roleOf word = .ok role ∧ ∃ xs', g.roles words = .ok xs' ∧ xs = (word, role) :: xs') := by
  rw [Grammar.roles]
  by_cases hword : word = "--"
  · simp [hword, eq_comm]
  · rw [if_neg hword, bind_eq_ok_iff]
    simp only [hword, false_and, false_or, ne_eq, not_false_eq_true, true_and, bind_eq_ok_iff, pure, Except.pure, Except.ok.injEq,
      @eq_comm _ _ xs]

/-- Words are read one by one, and an option in front of the separator is what the grammar says that it is. -/
theorem told_of_roles (h : g.roles words = .ok xs) : Told g xs ∧ xs.map (·.1) = words := by
  induction words generalizing xs with
  | nil =>
    cases h
    exact ⟨fun x hx => absurd hx (List.not_mem_nil), rfl⟩
  | cons word words ih =>
    rcases roles_cons_eq_ok_iff.mp h with ⟨-, rfl⟩ | ⟨hword, role, hrole, xs, hroles, rfl⟩
    · refine ⟨fun x hx hoption => ?_, by simp [Function.comp_def]⟩
      rcases List.mem_cons.mp hx with rfl | hx
      · cases hoption
      · obtain ⟨w, -, rfl⟩ := List.mem_map.mp hx
        cases hoption
    · obtain ⟨htold, hmap⟩ := ih hroles
      refine ⟨fun x hx hoption => ?_, by rw [List.map_cons, hmap]⟩
      rcases List.mem_cons.mp hx with rfl | hx
      · exact ⟨hword, hrole⟩
      · exact htold x hx hoption

/-- A word that is a wish is an option. -/
theorem exists_roleOf_of_wishes (hg : g.HasWishes) {word : String} (h : wishes word ≠ []) : ∃ m, g.roleOf word = .ok (.option m) := by
  obtain ⟨m, b, hrole, -⟩ := readAs_of_wishes hg h
  exact ⟨m, hrole⟩

/-- Words without wishes are what they are among all. -/
theorem roles_withoutWishes (hg : g.HasWishes) (h : g.roles words = .ok xs) :
    g.roles (withoutWishes words) = .ok (xs.filter isKept) ∧ wishesIn words = wishesAmong xs := by
  induction words generalizing xs with
  | nil =>
    cases h
    exact ⟨rfl, rfl⟩
  | cons word words ih =>
    rcases roles_cons_eq_ok_iff.mp h with ⟨rfl, rfl⟩ | ⟨hword, role, hrole, xs, hroles, rfl⟩
    · have hplain : ∀ x ∈ (("--", .separator) :: words.map fun w => (w, .plain) : List (String × Role OptionKey)), isOption x = false := by
        simp [isOption]
      rw [withoutWishes, if_pos rfl, h, List.filter_eq_self.mpr fun x hx => by simp [isKept, hplain x hx]]
      refine ⟨rfl, ?_⟩
      rw [wishesIn, if_pos rfl]
      exact (List.flatMap_eq_nil_iff.mpr fun x hx => by simp [hplain x hx]).symm
    · obtain ⟨hkept, hwishes⟩ := ih hroles
      rw [withoutWishes, wishesIn, if_neg hword, if_neg hword, hwishes]
      by_cases hnone : wishes word = []
      · rw [if_pos hnone, roles_cons hword hrole hkept]
        simp [isKept, wishesAmong, hnone]
      · obtain ⟨m, hm⟩ := exists_roleOf_of_wishes hg hnone
        obtain rfl := Except.ok.inj (hrole.symm.trans hm)
        rw [if_neg hnone, hkept]
        simp [isKept, wishesAmong, isOption, hnone]

/-- Words are not refused for wishes among them. -/
theorem exists_roles (hg : g.HasWishes) (h : g.roles (withoutWishes words) = .ok ys) : ∃ xs, g.roles words = .ok xs := by
  induction words generalizing ys with
  | nil => exact ⟨[], rfl⟩
  | cons word words ih =>
    rw [withoutWishes] at h
    split at h
    · exact ⟨ys, h⟩
    · rename_i hword
      split at h
      · rcases roles_cons_eq_ok_iff.mp h with ⟨heq, -⟩ | ⟨-, role, hrole, ys, hroles, -⟩
        · exact absurd heq hword
        · obtain ⟨xs, hxs⟩ := ih hroles
          exact ⟨_, roles_cons hword hrole hxs⟩
      · rename_i hwishes
        obtain ⟨m, hm⟩ := exists_roleOf_of_wishes hg hwishes
        obtain ⟨xs, hxs⟩ := ih h
        exact ⟨_, roles_cons hword hm hxs⟩

/-- Trimming takes words away and adds none. -/
theorem withoutWishes_subset (words : List String) : withoutWishes words ⊆ words := by
  induction words with
  | nil => exact List.Subset.refl _
  | cons word words ih =>
    rw [withoutWishes]
    split
    · exact List.Subset.refl _
    · split
      · exact List.cons_subset_cons _ ih
      · exact List.Subset.trans ih (List.subset_cons_self _ _)

/-! ## Options without wishes -/

/-- Some options are others but for wishes among them. -/
structure Trimmed (os os' : List (Opt OptionKey × Option String)) (ks : List OptionKey) : Prop where
  rest : (os.filter fun x => ¬x.1.key.IsWish) = os'.filter fun x => ¬x.1.key.IsWish
  wishes : ∀ key, key.IsWish → (key ∈ keys os ↔ key ∈ ks ∨ key ∈ keys os')
  flags : ∀ x ∈ os, x ∈ os' ∨ x.1.argument? = none ∧ x.1.key.IsWish

theorem Trimmed.refl (os : List (Opt OptionKey × Option String)) : Trimmed os os [] := ⟨rfl, by simp, fun x hx => .inl hx⟩

/-- Two lines are trimmed one behind the other. -/
theorem Trimmed.append {os₁ os₂ os₁' os₂' : List (Opt OptionKey × Option String)} {ks₁ ks₂ : List OptionKey}
    (h₁ : Trimmed os₁ os₁' ks₁) (h₂ : Trimmed os₂ os₂' ks₂) : Trimmed (os₁ ++ os₂) (os₁' ++ os₂') (ks₁ ++ ks₂) where
  rest := by rw [List.filter_append, List.filter_append, h₁.rest, h₂.rest]
  wishes key hkey := by
    have h₁ := h₁.wishes key hkey
    have h₂ := h₂.wishes key hkey
    simp only [keys, List.map_append, List.mem_append] at h₁ h₂ ⊢
    rw [h₁, h₂]
    tauto
  flags x hx := by
    rcases List.mem_append.mp hx with hx | hx
    · exact (h₁.flags x hx).imp_left (List.mem_append_left _)
    · exact (h₂.flags x hx).imp_left (List.mem_append_right _)

/-- Wishes can be left out. -/
theorem Trimmed.wish (hks : ∀ key ∈ keys os, key.IsWish) (hflags : ∀ x ∈ os, x.1.argument? = none) : Trimmed os [] (keys os) := by
  have hwish : ∀ x ∈ os, x.1.key.IsWish := fun x hx => hks _ (List.mem_map_of_mem hx)
  refine ⟨?_, fun key _ => (or_iff_left List.not_mem_nil).symm, fun x hx => .inr ⟨hflags x hx, hwish x hx⟩⟩
  exact List.filter_eq_nil_iff.mpr fun x hx => by simpa using hwish x hx

/-- Words of which none is a wish are kept. -/
theorem filter_isKept (h : ∀ x ∈ xs, isOption x = true → wishes x.1 = []) : xs.filter isKept = xs ∧ wishesAmong xs = [] := by
  constructor
  · refine List.filter_eq_self.mpr fun x hx => ?_
    cases hoption : isOption x with
    | false => simp [isKept, hoption]
    | true => simp [isKept, h x hx hoption]
  · refine List.flatMap_eq_nil_iff.mpr fun x hx => ?_
    cases hoption : isOption x with
    | false => rfl
    | true => exact h x hx hoption

/-- The options of a word that is a wish. -/
theorem bundle_of_wishes (hg : g.HasWishes) {word : String} (hwish : wishes word ≠ []) {m : Mention OptionKey} {b : Bundle OptionKey}
    (hrole : g.roleOf word = .ok (.option m)) (hbundle : bundle g m = .ok b) :
    keys (b.taken none) = wishes word ∧ ∀ x ∈ b.taken none, x.1.argument? = none := by
  obtain ⟨m', b', hrole', hbundle', -, hflags, hkeys⟩ := readAs_of_wishes hg hwish
  obtain rfl : m = m' := by simpa using hrole.symm.trans hrole'
  obtain rfl := Except.ok.inj (hbundle.symm.trans hbundle')
  exact ⟨hkeys, hflags⟩

/-- A piece is kept, or it is a wish. -/
theorem Piece.exists_trimmed (hg : g.HasWishes) (h : Piece g xs os) (htold : Told g xs) :
    ∃ os', Pieces g (xs.filter isKept) os' ∧ Trimmed os os' (wishesAmong xs) := by
  by_cases hnone : ∀ x ∈ xs, isOption x = true → wishes x.1 = []
  · obtain ⟨hfilter, hamong⟩ := filter_isKept hnone
    have hpieces := Pieces.cons h .nil
    rw [hfilter, hamong]
    exact ⟨os, by simpa using hpieces, .refl os⟩
  · cases h with
    | @complete word m b hbundle hleft hwaiting =>
      have hwish : wishes word ≠ [] := fun hword => hnone fun x hx _ => by rw [List.mem_singleton.mp hx, hword]
      obtain ⟨hkeys, hflags⟩ := bundle_of_wishes hg hwish (htold _ List.mem_cons_self rfl).2 hbundle
      have hamong : wishesAmong [(word, Role.option m)] = keys (b.taken none) := by simp [wishesAmong, isOption, hkeys]
      refine ⟨[], ?_, ?_⟩
      · simpa [isKept, isOption, hwish] using Pieces.nil
      · rw [hamong]
        exact .wish (fun key hkey => isWish_of_mem_wishes (hkeys ▸ hkey)) hflags
    | @argument word argument m b o hbundle hleft hwaiting =>
      -- A wish does not wait for an argument.
      have hwish : wishes word ≠ [] := fun hword => hnone fun x hx hoption => by
        rcases List.mem_cons.mp hx with rfl | hx
        · exact hword
        · rw [List.mem_singleton.mp hx] at hoption
          cases hoption
      obtain ⟨-, hflags⟩ := bundle_of_wishes hg hwish (htold _ List.mem_cons_self rfl).2 hbundle
      obtain ⟨hlast, hargument⟩ := Option.filter_eq_some_iff.mp hwaiting
      have hnone := hflags (o, none) (by simp [Bundle.taken, hlast])
      simp [show o.argument? = none from hnone] at hargument

/-- Options among which wishes are left out are options still. -/
theorem Pieces.exists_trimmed (hg : g.HasWishes) (h : Pieces g xs os) (htold : Told g xs) :
    ∃ os', Pieces g (xs.filter isKept) os' ∧ Trimmed os os' (wishesAmong xs) := by
  induction h with
  | nil => exact ⟨[], .nil, .refl []⟩
  | @cons ws xs os os' hpiece hpieces ih =>
    obtain ⟨os₁, hpieces₁, htrimmed₁⟩ := hpiece.exists_trimmed hg fun x hx => htold x (List.mem_append_left _ hx)
    obtain ⟨os₂, hpieces₂, htrimmed₂⟩ := ih fun x hx => htold x (List.mem_append_right _ hx)
    refine ⟨os₁ ++ os₂, ?_, ?_⟩
    · rw [List.filter_append]
      exact hpieces₁.append hpieces₂
    · rw [wishesAmong, List.flatMap_append]
      exact htrimmed₁.append htrimmed₂

/-- Words that are laid out are so without wishes. -/
theorem Laid.exists_trimmed (hg : g.HasWishes) (h : Laid g n xs os filled) (htold : Told g xs) :
    ∃ os', Laid g n (xs.filter isKept) os' filled ∧ Trimmed os os' (wishesAmong xs) := by
  cases h with
  | @intro before row behind os os' hbefore hrow hfill hbehind =>
    obtain ⟨os₁, hpieces₁, htrimmed₁⟩ := hbefore.exists_trimmed hg fun x hx => htold x (by simp [hx])
    obtain ⟨os₂, hpieces₂, htrimmed₂⟩ := hbehind.exists_trimmed hg fun x hx => htold x (by simp [hx])
    obtain ⟨hkept, hnone⟩ := filter_isKept fun x hx hoption => absurd (hrow x hx) (by simp [hoption])
    refine ⟨os₁ ++ os₂, ?_, ?_⟩
    · rw [List.filter_append, List.filter_append, hkept]
      exact .intro hpieces₁ hrow hfill hpieces₂
    · have hamong : wishesAmong (before ++ row ++ behind) = wishesAmong before ++ wishesAmong behind := by
        rw [wishesAmong, List.flatMap_append, List.flatMap_append]
        show wishesAmong before ++ wishesAmong row ++ wishesAmong behind = _
        rw [hnone, List.append_nil]
      rw [hamong]
      exact htrimmed₁.append htrimmed₂

/-- Options that may be taken have nothing to do with logging, if no word is a wish. -/
theorem Laid.not_isWish (hg : g.HasWishes) (h : Laid g n xs os filled) (htold : Told g xs)
    (hnone : ∀ x ∈ xs, isOption x = true → wishes x.1 = []) (hmay : ∀ x ∈ os, MayTake g x) : ∀ key ∈ keys os, ¬key.IsWish := by
  intro key hkey hwish
  obtain ⟨x, hx, rfl⟩ := List.mem_map.mp hkey
  obtain ⟨word, m, b, argument?, hmem, hbundle, hleft, hx, hsub⟩ := h.bundled x hx
  obtain ⟨hne, hrole⟩ := htold _ hmem rfl
  have hkey : x.1.key ∈ keys (b.taken none) := keys_taken b argument? ▸ List.mem_map_of_mem hx
  rcases wishes_of_bundle hg hne hrole hbundle hleft ⟨_, hkey, hwish⟩ with hword | hhelp
  · exact hword (hnone _ hmem rfl)
  · rw [← keys_taken b argument?] at hhelp
    obtain ⟨y, hy, hyhelp⟩ := List.mem_map.mp hhelp
    exact (hmay y (hsub hy)).2 (hyhelp.trans hg.help_eq.symm)

/-! ## What is read -/

/-- Wishes for more and for less logging clash. -/
def Clash (ks : List OptionKey) : Prop := .verbose ∈ ks ∧ .quiet ∈ ks

instance : DecidablePred Clash := fun _ => inferInstanceAs (Decidable (_ ∧ _))

/-- Words are read to options and places. -/
structure ReadTo (g : Grammar OptionKey) (n : Nat) (words : List String) (os : List (Opt OptionKey × Option String))
    (filled : List (Option String)) : Prop where
  laid : ∃ xs, g.roles words = .ok xs ∧ Laid g n xs os filled
  may : ∀ x ∈ os, MayTake g x
  peace : Peace g (keys os)

/-- Words are laid out. -/
def LaidOut (g : Grammar OptionKey) (n : Nat) (words : List String) : Prop :=
  ∃ xs os filled, g.roles words = .ok xs ∧ Laid g n xs os filled

/-- Words that are read do not clash. -/
theorem ReadTo.not_clash (hg : g.HasWishes) (h : ReadTo g n words os filled) : ¬Clash (wishesIn words) := by
  obtain ⟨xs, hroles, hlaid⟩ := h.laid
  obtain ⟨os', -, htrimmed⟩ := hlaid.exists_trimmed hg (told_of_roles hroles).1
  rw [(roles_withoutWishes hg hroles).2]
  rintro ⟨hverbose, hquiet⟩
  exact (hg.peace_iff _).mp h.peace
    ⟨(htrimmed.wishes _ (.inl rfl)).mpr (.inl hverbose), (htrimmed.wishes _ (.inr rfl)).mpr (.inl hquiet)⟩

/-- Words that are laid out say what the others say without their wishes, and these wishes. -/
theorem ReadTo.exists_laid (hg : g.HasWishes) (h : ReadTo g n (withoutWishes words) os' filled) (hlaid : LaidOut g n words) :
    ∃ xs os, g.roles words = .ok xs ∧ Laid g n xs os filled ∧ (∀ x ∈ os, MayTake g x) ∧
      ((noted os).filter fun x => ¬x.1.IsWish) = noted os' ∧ ∀ key, key.IsWish → (key ∈ keys os ↔ key ∈ wishesIn words) := by
  obtain ⟨xs, os, filled', hroles, hlaid⟩ := hlaid
  obtain ⟨ys, hroles', hlaid'⟩ := h.laid
  obtain ⟨hkept, hwishes⟩ := roles_withoutWishes hg hroles
  obtain rfl := Except.ok.inj (hroles'.symm.trans hkept)
  obtain ⟨htold, -⟩ := told_of_roles hroles
  obtain ⟨os₁, hlaid₁, htrimmed⟩ := hlaid.exists_trimmed hg htold
  obtain ⟨hmay₁, hnoted, rfl⟩ := hlaid'.same hg.fair hlaid₁ h.may h.peace
  have hnone : ∀ key ∈ keys os₁, ¬key.IsWish := by
    refine hlaid₁.not_isWish hg (fun x hx => htold x (List.mem_of_mem_filter hx)) (fun x hx hoption => ?_) hmay₁
    simpa [isKept, hoption] using (List.mem_filter.mp hx).2
  refine ⟨xs, os, hroles, hlaid, fun x hx => ?_, ?_, fun key hkey => ?_⟩
  · rcases htrimmed.flags x hx with hmem | ⟨hargument, hwish⟩
    · exact hmay₁ x hmem
    · refine ⟨by simp [Opt.problem?, hargument], fun hhelp => ?_⟩
      rw [hhelp, hg.help_eq] at hwish
      exact absurd hwish (by decide)
  · have hkept₁ : (os₁.filter fun x => ¬x.1.key.IsWish) = os₁ :=
      List.filter_eq_self.mpr fun x hx => by simpa using hnone _ (List.mem_map_of_mem hx)
    rw [← hnoted, ← hkept₁, ← htrimmed.rest, noted, List.filter_map]
    rfl
  · rw [htrimmed.wishes key hkey, hwishes, or_iff_left fun hmem => hnone key hmem hkey]

/-- Words that are laid out are read with their wishes, if these do not clash and the other words are read without them. -/
theorem ReadTo.of_withoutWishes (hg : g.HasWishes) (h : ReadTo g n (withoutWishes words) os' filled) (hlaid : LaidOut g n words)
    (hclash : ¬Clash (wishesIn words)) : ∃ os, ReadTo g n words os filled ∧ ((noted os).filter fun x => ¬x.1.IsWish) = noted os' ∧
      ∀ key, key.IsWish → (key ∈ keys os ↔ key ∈ wishesIn words) := by
  obtain ⟨xs, os, hroles, hlaid, hmay, hnoted, hkeys⟩ := h.exists_laid hg hlaid
  refine ⟨os, ⟨⟨xs, hroles, hlaid⟩, hmay, ?_⟩, hnoted, hkeys⟩
  rw [hg.peace_iff, hkeys _ (.inl rfl), hkeys _ (.inr rfl)]
  exact hclash

/-- Words without wishes are read to options that are no wishes. -/
theorem ReadTo.not_isWish (hg : g.HasWishes) (h : ReadTo g n (withoutWishes words) os' filled) : ∀ key ∈ keys os', ¬key.IsWish := by
  obtain ⟨ys, hroles', hlaid⟩ := h.laid
  obtain ⟨xs, hroles⟩ := exists_roles hg hroles'
  obtain rfl := Except.ok.inj (hroles'.symm.trans (roles_withoutWishes hg hroles).1)
  refine hlaid.not_isWish hg (fun x hx => (told_of_roles hroles).1 x (List.mem_of_mem_filter hx)) (fun x hx hoption => ?_) h.may
  simpa [isKept, hoption] using (List.mem_filter.mp hx).2

/-- No word asks for help if help may not be taken, and words are read but for their wishes. -/
theorem ReadTo.not_asksHelp (hg : g.HasWishes) (h : ReadTo g n (withoutWishes words) os filled) (hroles : g.roles words = .ok xs)
    (hx : x ∈ xs) : ¬AsksHelp g x := by
  rintro ⟨m, b, hm, hbundle, hhelp⟩
  obtain ⟨word, role⟩ := x
  obtain rfl : role = .option m := hm
  obtain ⟨ys, hroles', hlaid⟩ := h.laid
  obtain rfl := Except.ok.inj (hroles'.symm.trans (roles_withoutWishes hg hroles).1)
  rw [hg.help_eq] at hhelp
  have hkept : wishes word = [] := by
    by_contra hwish
    obtain ⟨hkeys, -⟩ := bundle_of_wishes hg hwish ((told_of_roles hroles).1 _ hx rfl).2 hbundle
    exact absurd (isWish_of_mem_wishes (hkeys ▸ hhelp)) (by decide)
  have hmem : (word, Role.option m) ∈ xs.filter isKept := List.mem_filter.mpr ⟨hx, by simp [isKept, hkept]⟩
  obtain ⟨y, hy, hyhelp⟩ := List.mem_map.mp (hlaid.keys_bundle_subset hmem hbundle hhelp)
  exact (h.may y hy).2 (hyhelp.trans hg.help_eq.symm)

end

end IconForge.CommandLine
