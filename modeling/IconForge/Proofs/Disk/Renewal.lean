import IconForge.Proofs.Disk.Clearing

/-!
# Making a place anew

Making directories either succeeds or changes nothing, as long as no part of the path is too long for a name and the ways back up on it
leave directories that are there (`makeDirectories_unchanged`). Once a place has been cleared, making a directory in it leaves the place
with that directory alone (`isAnew_of_makeDirs`), and doing so again later leaves a disk that is alike (`makeDirs_again`).
-/

namespace IconForge.Disk

/-- A place at which there is a directory, and in it nothing but one other directory. -/
structure IsAnew (d : Disk) (base : Location) (name : String) : Prop where
  directory : d.hasDirectory base = true
  inner : d.hasDirectory (base ++ [name]) = true
  empty : ∀ m, base <+: m → m ≠ base → m ≠ base ++ [name] → d.get? m = none

variable {d d' d₁ d₂ : Disk} {p q : Path} {base l m : Location} {name : String}

/-- Making a directory whose path ends with a name. -/
theorem makeDirectory_child (d : Disk) (q : Path) (hup : name ≠ "..") :
    d.makeDirectory (q.child name) = match d.locate (q.child name) with
      | .error r => .error r
      | .ok l => match d.get? l with
        | some _ => .error .present
        | none => .ok (d.put l .directory) := by
  have hlast : (q.child name).parts.getLast? = some name := by simp [Path.child]
  unfold makeDirectory
  split
  · rename_i hnone
    rw [hlast] at hnone
    cases hnone
  · rename_i hdots
    rw [hlast, Option.some.injEq] at hdots
    exact absurd hdots hup
  · cases d.locate (q.child name) with
    | error r => rfl
    | ok l => cases hg : d.get? l <;> simp [hg, bind, Except.bind, throw, throwThe, MonadExceptOf.throw, pure, Except.pure]

/-- A directory is made where a path leads and nothing is. -/
theorem makeDirectory_of_locate (hup : name ≠ "..") (hl : d.locate (q.child name) = .ok l) (hnone : d.get? l = none) :
    d.makeDirectory (q.child name) = .ok (d.put l .directory) := by
  rw [makeDirectory_child d q hup, hl]
  simp only [hnone]

/-- A directory that cannot be made since something is missing has a path that leads nowhere. -/
theorem locate_of_makeDirectory_missing (hup : name ≠ "..") (h : d.makeDirectory (q.child name) = .error .missing) :
    d.locate (q.child name) = .error .missing := by
  rw [makeDirectory_child d q hup] at h
  cases hl : d.locate (q.child name) with
  | error r =>
    rw [hl] at h
    obtain rfl := Except.error.inj (show (Except.error r : Except Refusal Disk) = .error .missing from h)
    rfl
  | ok l =>
    rw [hl] at h
    cases hg : d.get? l <;> simp [hg] at h

/-! ## Making directories changes nothing, or it succeeds -/

section
variable (htree : d.IsTree) (hw : (q.child name).IsWritten) (habs : q.isAbsolute = true) (hfirm : d.Firm [] (q.child name).parts)
include htree hw habs hfirm

/-- What cannot be made since something is missing ends with a name. -/
theorem ne_up_of_missing (h : d.makeDirectory (q.child name) = .error .missing) : name ≠ ".." := by
  rintro rfl
  have hparts : ∀ part ∈ q.parts, part ≠ "" := fun part hpart => Path.ne_empty_of_isPart (hw part (List.mem_append_left _ hpart)).1
  have hdir : d.hasDirectory (d.place q) = true := by
    rw [place_of_isAbsolute habs]
    exact (@Firm.of_append d [] q.parts [".."] hfirm).1 rfl
  have hl := (@Firm.front d [] q.parts [".."] hfirm).locate htree habs hparts (isThere_of_hasDirectory hdir)
  have hlast : (q.child "..").parts.getLast? = some ".." := by simp [Path.child]
  unfold makeDirectory at h
  split at h
  · rename_i hnone
    rw [hlast] at hnone
    cases hnone
  · rw [Path.parent_child, hl] at h
    simp only [bind, Except.bind, hasDirectory_iff.mp hdir] at h
    cases h
  · simp_all

/-- What could not be made since something was missing can be made once there is a directory that leads to it. -/
theorem makeDirectory_of_missing (hshort : name.utf8ByteSize ≤ nameLimit) (h : d.makeDirectory (q.child name) = .error .missing)
    {depth : Nat} (hparent : d.makeDirectories depth q = (.ok (), d₁)) : ∃ d₂, d₁.makeDirectory (q.child name) = .ok d₂ := by
  have hup := ne_up_of_missing htree hw habs hfirm h
  have habs' : (q.child name).isAbsolute = true := habs
  have hparts : ∀ part ∈ (q.child name).parts, part ≠ "" := fun part hpart => Path.ne_empty_of_isPart (hw part hpart).1
  obtain ⟨hpart, hslash⟩ := hw name (by simp [Path.child])
  -- The path could not be looked up, so that nothing is where it leads.
  have hmissing := locate_of_makeDirectory_missing hup h
  have hzero : '\x00' ∉ name.toList := by
    intro hmem
    have hholds : holdsZeroByte (q.child name) = true := by simp [holdsZeroByte, Path.child, hmem]
    rw [locate, if_pos hholds] at hmissing
    cases hmissing
  have hgone : ¬d.IsThere (d.place (q.child name)) := fun hthere => by
    rw [hfirm.locate htree habs' hparts hthere] at hmissing
    cases hmissing
  obtain ⟨m, hm, hdir⟩ := isDirectory_eq_ok_iff.mp (makeDirectories_eq_ok hparent)
  have hplace : m = d.place q := by rw [eq_place_of_locate hm, place_of_isAbsolute habs, place_of_isAbsolute habs]
  have hkept : isStray m = false := by
    rw [hplace, place_of_isAbsolute habs]
    exact isStray_of_forall_ne (ne_empty_of_mem_descend (by simp) fun part hpart => hparts part (List.mem_append_left _ hpart))
  have hl := locate_child hm hdir hkept ⟨hpart, hup, hslash, hzero, hshort⟩
  have hnone : d.get? (m ++ [name]) = none := by
    rw [hplace, ← place_child d q hup]
    exact get?_eq_none_of_not_isThere hgone
  refine ⟨_, makeDirectory_of_locate hup hl ?_⟩
  have hopens := makeDirectories_opens depth d q
  rw [hparent] at hopens
  rcases hopens.grows.outside (m ++ [name]) id with heq | ⟨-, ⟨front, ⟨rest, hrest⟩, hat⟩, -⟩
  · rw [heq, hnone]
  · -- A directory that has been made there would lie on the way to its own parent.
    rw [start_of_isAbsolute habs] at hat
    have hfirm' := @Firm.front d [] q.parts [name] hfirm
    rw [← hrest] at hfirm'
    have hbelow := hfirm'.of_append.prefix_descend htree
      (fun part hpart => hparts part (List.mem_append_left _ (hrest ▸ List.mem_append_right _ hpart)))
      (by rw [← hat, IsThere, hnone]; simp)
    rw [← descend_append, hrest, ← place_of_isAbsolute habs d, ← hplace, ← hat] at hbelow
    have hlen := hbelow.length_le
    rw [List.length_append, List.length_singleton] at hlen
    omega

end

/-- Making directories that fails changes nothing, where no part of the path is too long and the path is firm. -/
theorem makeDirectories_unchanged (htree : d.IsTree) (hw : p.IsWritten) (habs : p.isAbsolute = true) (hfirm : d.Firm [] p.parts)
    (hshort : ∀ part ∈ p.parts, part.utf8ByteSize ≤ nameLimit) {depth : Nat} {f : Fault}
    (h : d.makeDirectories depth p = (.error f, d')) : d' = d := by
  induction depth generalizing p f d' with
  | zero => exact (congrArg Prod.snd h).symm
  | succ depth ih =>
    rw [makeDirectories] at h
    split at h
    · cases congrArg Prod.fst h
    · rename_i hmissing
      split at h
      · exact (congrArg Prod.snd h).symm
      · rename_i hne
        obtain ⟨front, name, hsplit⟩ := List.eq_nil_or_concat p.parts |>.resolve_left (by simpa using hne)
        obtain ⟨q, rfl⟩ : ∃ q, p = Path.child q name := ⟨_, eq_child_of_getLast? (by rw [hsplit]; simp)⟩
        rw [Path.parent_child] at h
        split at h
        · rename_i hparent
          obtain rfl := congrArg Prod.snd h
          have hmem : ∀ part ∈ q.parts, part ∈ (q.child name).parts := fun part hpart => List.mem_append_left _ hpart
          exact ih (fun part hpart => hw part (hmem part hpart)) habs (@Firm.front d [] q.parts [name] hfirm)
            (fun part hpart => hshort part (hmem part hpart)) hparent
        · rename_i hparent
          obtain ⟨d₂, hmade⟩ := makeDirectory_of_missing htree hw habs hfirm (hshort name (by simp [Path.child])) hmissing hparent
          rw [hmade] at h
          cases congrArg Prod.fst h
    · have hsame := congrArg Prod.snd h
      rw [acceptPresent_snd] at hsame
      exact hsame.symm

/-! ## Making a place anew -/

namespace Clearable

variable (h : d.Clearable p)
include h

/-- A start of the path that leads to the place or below it is the path. -/
theorem eq_of_prefix_front {front : List String} (hfront : front <+: p.parts) (hpre : d.place p <+: descend [] front) :
    front = p.parts := by
  obtain ⟨rest, hrest⟩ := hfront
  cases rest with
  | nil => rw [← hrest, List.append_nil]
  | cons part rest =>
    have hfirm := h.firm
    rw [← hrest] at hfirm
    exact absurd hpre (hfirm.not_prefix (hrest ▸ h.descend_eq))

/-- Behind making a directory in it, a place that has been cleared holds nothing else. -/
theorem isAnew_of_makeDirs (hup : name ≠ "..") (hcleared : Cleared (d.place p) d d₁)
    (hmake : d₁.makeDirs (p.child name) = (.ok (), d₂)) : IsAnew d₂ (d.place p) name := by
  have hplace : ∀ d' : Disk, d'.place p = d.place p := fun d' => by
    rw [place_of_isAbsolute h.isAbsolute, place_of_isAbsolute h.isAbsolute]
  obtain ⟨l, hl, hinner⟩ := isDirectory_eq_ok_iff.mp (makeDirs_eq_ok hmake)
  obtain ⟨base, hbase, hdir, -, -, -, rfl⟩ := (locate_child_eq_ok_iff hup).mp hl
  obtain rfl : base = d.place p := (eq_place_of_locate hbase).trans (hplace d₂)
  refine ⟨hdir, hinner, fun m hpre hne hne' => ?_⟩
  have hopens := makeDirs_opens d₁ (p.child name)
  rw [hmake] at hopens
  rcases hopens.grows.outside m id with heq | ⟨-, ⟨front, hfront, hat⟩, -⟩
  · rw [heq, hcleared.get?, if_pos hpre]
  · rw [start_of_isAbsolute (p := p.child name) h.isAbsolute] at hat
    have hparts : (p.child name).parts = p.parts ++ [name] := rfl
    rw [hparts] at hfront
    rcases List.prefix_concat_iff.mp hfront with rfl | hfront
    · rw [descend_append, h.descend_eq] at hat
      exact absurd (hat.trans (step_of_ne hup)) hne'
    · rw [h.eq_of_prefix_front hfront (hat ▸ hpre), h.descend_eq] at hat
      exact absurd hat hne

/-- Where there has been a directory, it can be made anew once it has been cleared. -/
theorem makeDirs_again (hdir : d.hasDirectory (d.place p) = true) (hname : IsName name) (hcleared : Cleared (d.place p) d d₁) :
    d₁.makeDirs (p.child name) = (.ok (), (d₁.put (d.place p) .directory).put (d.place p ++ [name]) .directory) := by
  have hl : d₁.locate p = .ok (d.place p) := by
    refine (h.locate_congr fun m hm => ?_).trans (h.locate_eq_ok hdir)
    rw [hcleared.get?, if_neg hm]
  have hnone : ∀ m, d.place p <+: m → d₁.get? m = none := fun m hm => by rw [hcleared.get?, if_pos hm]
  obtain ⟨hzero, hwalk⟩ := locate_eq_ok_iff.mp hl
  have hmissing : d₁.makeDirectory (p.child name) = .error .missing := by
    have hzero' : holdsZeroByte (p.child name) = false := by
      have hboth : holdsZeroByte (p.child name) = (holdsZeroByte p || name.toList.contains '\x00') := by simp [holdsZeroByte, Path.child]
      rw [hboth, hzero]
      simpa using hname.noZeroByte
    have hwalk' : d₁.walk (d₁.start p) (p.parts ++ [name]) = .error .missing := by
      rw [walk_append, hwalk]
      simp only [Except.bind, walk, hnone _ (List.prefix_refl _)]
    have hl' : d₁.locate (p.child name) = .error .missing := by
      rw [locate, if_neg (Bool.eq_false_iff.mp hzero')]
      exact hwalk'
    rw [makeDirectory_child d₁ p hname.ne_up, hl']
  obtain ⟨q, last, hq, hup⟩ := h.exists_child
  have hparent : d₁.makeDirectory p = .ok (d₁.put (d.place p) .directory) := by
    have hlast : d₁.locate (q.child last) = .ok (d.place p) := by rw [← hq, hl]
    have hmade := makeDirectory_of_locate hup hlast (hnone _ (List.prefix_refl _))
    rwa [← hq] at hmade
  have hne := h.place_ne
  have hgrows : Grows (fun _ => False) (fun _ => True) d₁ (d₁.put (d.place p) .directory) :=
    .make hne (hnone _ (List.prefix_refl _)) trivial
  have hmade : (d₁.put (d.place p) .directory).hasDirectory (d.place p) = true := by
    rw [hasDirectory_iff, get?_put hne, if_pos rfl]
  have hkept : isStray (d.place p) = false := by
    rw [← h.descend_eq]
    exact isStray_of_forall_ne (ne_empty_of_mem_descend (by simp) fun part hpart => Path.ne_empty_of_isPart (h.isWritten part hpart).1)
  have hinner : (d₁.put (d.place p) .directory).makeDirectory (p.child name) =
      .ok ((d₁.put (d.place p) .directory).put (d.place p ++ [name]) .directory) := by
    refine makeDirectory_of_locate hname.ne_up (locate_child (hgrows.locate hl) hmade hkept hname) ?_
    rw [get?_put hne, if_neg (by simp)]
    exact hnone _ (List.prefix_append _ _)
  have hlen : (p.child name).parts.length = p.parts.length + 1 := by simp [Path.child]
  have hparts : (p.child name).parts.isEmpty = false := by simp [Path.child]
  have hagain : makeDirectories (p.parts.length + 1) d₁ p = (.ok (), d₁.put (d.place p) .directory) := by
    rw [makeDirectories, hparent]
  rw [makeDirs, hlen, makeDirectories, hmissing]
  simp only [hparts, Bool.false_eq_true, if_false, Path.parent_child, hagain, hinner]

end Clearable

/-- Where a directory lies at a place that has been made anew before, making it anew again leaves a disk that is alike. -/
theorem renewal_again (h : d.Clearable p) (hdir : d.hasDirectory (d.place p) = true) (hname : IsName name)
    (hanew : IsAnew d₂ (d.place p) name) (hsame : SameBeside (d.place p) d₂ d) :
    (d.removeTree p).1 = .ok () ∧ ((d.removeTree p).2.makeDirs (p.child name)).1 = .ok () ∧
      Alike nowhere d₂ ((d.removeTree p).2.makeDirs (p.child name)).2 := by
  have hcleared := h.removeTree_cleared
  rw [h.makeDirs_again hdir hname hcleared]
  refine ⟨by rw [h.removeTree_of_directory hdir], rfl, .of_get? (hcleared.workingDirectory.trans hsame.workingDirectory)
    (hcleared.platform.trans hsame.platform) fun m => ?_⟩
  rw [get?_put (by simp), get?_put h.place_ne, hcleared.get?]
  by_cases hinner : m = d.place p ++ [name]
  · rw [if_pos hinner, hinner]
    exact (hasDirectory_iff.mp hanew.inner).symm
  · rw [if_neg hinner]
    by_cases hbase : m = d.place p
    · rw [if_pos hbase, hbase]
      exact (hasDirectory_iff.mp hanew.directory).symm
    · rw [if_neg hbase]
      by_cases hpre : d.place p <+: m
      · rw [if_pos hpre, hanew.empty m hpre hbase hinner]
      · rw [if_neg hpre, hsame.get? m hpre]

end IconForge.Disk
