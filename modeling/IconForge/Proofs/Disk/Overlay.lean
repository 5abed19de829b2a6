import IconForge.Proofs.Disk.Copying

/-!
# What copying leaves behind

When nothing is left out, a tree that has been copied lies over what was at the target (`copyTree_overlays`): directories are joined,
a file takes the place of a file, and a file whose name a directory has at the target goes into that directory. What was at the
target and has no part in this stays.
-/

namespace IconForge.Disk

/-- What lies at and below a location, seen from there. -/
def view (d : Disk) (l : Location) : Location → Option Entry := fun rel => d.get? (l ++ rel)

/-- A tree that lies over another one. -/
def overlay (source target : Location → Option Entry) (rel : Location) : Option Entry :=
  match source rel, source rel.dropLast with
  | some .directory, _ => some .directory
  | some (.file content), _ => if target rel = some .directory then some .directory else some (.file content)
  | none, some (.file content) =>
    if target rel.dropLast = some .directory ∧ rel.getLast? = rel.dropLast.getLast? then some (.file content) else target rel
  | none, _ => target rel

/-- A tree seen from its root. -/
structure IsSource (source : Location → Option Entry) : Prop where
  root : source [] = some .directory
  closed : ∀ {rel name}, name ≠ "" → (source (rel ++ [name])).isSome = true → source rel = some .directory

/-- Neither location lies at or below the other one. -/
def Apart (l m : Location) : Prop := ¬l <+: m ∧ ¬m <+: l

variable {d d' d'' : Disk} {l m base origin rel : Location} {source target target' : Location → Option Entry} {written name : String}
  {content : List UInt8}

/-! ## Overlays -/

/-- A directory lies over whatever was there. -/
theorem overlay_of_directory (h : source rel = some .directory) : overlay source target rel = some .directory := by
  rw [overlay, h]

/-- A file lies over whatever was there, but for a directory. -/
theorem overlay_of_file (h : source rel = some (.file content)) :
    overlay source target rel = if target rel = some .directory then some .directory else some (.file content) := by
  rw [overlay, h]

/-- A file that comes upon a directory goes into it under its own name. -/
theorem overlay_into (h : source rel = none) (hfile : source rel.dropLast = some (.file content)) :
    overlay source target rel =
      if target rel.dropLast = some .directory ∧ rel.getLast? = rel.dropLast.getLast? then some (.file content) else target rel := by
  rw [overlay, h, hfile]

/-- Where the source has nothing, the target stays. -/
theorem overlay_of_none (h : source rel = none) (hfile : ∀ content, source rel.dropLast ≠ some (.file content)) :
    overlay source target rel = target rel := by
  rw [overlay, h]
  split
  · rename_i heq
    cases heq
  · rename_i heq
    cases heq
  · rename_i content _ heq
    exact absurd heq (hfile content)
  · rfl

/-- Laying the same tree over a second time changes nothing, also if only parts of it lay there. -/
theorem overlay_of_laid (hroot : source [] = some .directory)
    (h : ∀ r, r = rel ∨ r = rel.dropLast ∧ r ≠ [] → target' r = target r ∨ target' r = overlay source target r) :
    overlay source target' rel = overlay source target rel := by
  have hsame : ∀ {r content}, source r = some (.file content) → target' r = target r ∨ target' r = overlay source target r →
      (target' r = some .directory ↔ target r = some .directory) := by
    intro r content hfile hr
    rcases hr with hr | hr
    · rw [hr]
    · rw [hr, overlay_of_file hfile]
      split <;> simp [*]
  have hrel := h rel (.inl rfl)
  cases hs : source rel with
  | some e =>
    cases e with
    | directory => rw [overlay_of_directory hs, overlay_of_directory hs]
    | file content => rw [overlay_of_file hs, overlay_of_file hs, if_congr (hsame hs hrel) rfl rfl]
  | none =>
    by_cases hfile : ∃ content, source rel.dropLast = some (.file content)
    · obtain ⟨content, hfile⟩ := hfile
      have hne : rel.dropLast ≠ [] := by
        intro hnil
        rw [hnil, hroot] at hfile
        cases hfile
      rw [overlay_into hs hfile] at hrel
      rw [overlay_into hs hfile, overlay_into hs hfile, if_congr (and_congr_left fun _ => hsame hfile (h _ (.inr ⟨rfl, hne⟩))) rfl rfl]
      split
      · rfl
      · rename_i hcond
        rw [if_neg hcond, or_self] at hrel
        exact hrel
    · have hnone : ∀ content, source rel.dropLast ≠ some (.file content) := fun content hc => hfile ⟨content, hc⟩
      rw [overlay_of_none hs hnone, or_self] at hrel
      rw [overlay_of_none hs hnone, overlay_of_none hs hnone, hrel]

/-- Below a directory of the tree that lies over another one, the part of the tree lies over the part of the other one. -/
theorem overlay_cons {part part' : Location → Option Entry} (hpart : ∀ r, part r = source (name :: r))
    (hpart' : ∀ r, part' r = target (name :: r)) (h : source [name] = some .directory) (rel : Location) :
    overlay source target (name :: rel) = overlay part part' rel := by
  cases rel with
  | nil => rw [overlay_of_directory h, overlay_of_directory (hpart [] ▸ h)]
  | cons next more =>
    have hfront : (name :: next :: more).dropLast = name :: (next :: more).dropLast := rfl
    have hlast : (name :: next :: more).getLast? = (next :: more).getLast? := rfl
    cases hs : source (name :: next :: more) with
    | some e =>
      have hs' : part (next :: more) = some e := (hpart _).trans hs
      cases e with
      | directory => rw [overlay_of_directory hs, overlay_of_directory hs']
      | file content => rw [overlay_of_file hs, overlay_of_file hs', hpart']
    | none =>
      have hs' : part (next :: more) = none := (hpart _).trans hs
      by_cases hfile : ∃ content, source (name :: (next :: more).dropLast) = some (.file content)
      · obtain ⟨content, hfile⟩ := hfile
        have hne : (next :: more).dropLast ≠ [] := by
          intro hnil
          rw [hnil, h] at hfile
          cases hfile
        have hlast' : (name :: (next :: more).dropLast).getLast? = ((next :: more).dropLast).getLast? :=
          List.getLast?_cons_of_ne_nil hne
        rw [overlay_into hs (hfront ▸ hfile), overlay_into hs' ((hpart _).trans hfile), hfront, hlast, hlast', hpart', hpart']
      · have hnone : ∀ content, source (name :: (next :: more).dropLast) ≠ some (.file content) := fun content hc => hfile ⟨content, hc⟩
        rw [overlay_of_none hs (hfront ▸ hnone), overlay_of_none hs' (hpart _ ▸ hnone), hpart']

/-- Where a tree has no directory it has nothing further down. -/
theorem IsSource.eq_none (h : IsSource source) (hname : source [name] ≠ some .directory) {rest : Location} (hrest : rest ≠ [])
    (hnames : ∀ part ∈ rest, part ≠ "") : source (name :: rest) = none := by
  induction rest using List.reverseRecOn with
  | nil => exact absurd rfl hrest
  | append_singleton front part ih =>
    by_contra hsome
    have hdir : source (name :: front) = some .directory := h.closed (hnames part (by simp)) (Option.isSome_iff_ne_none.mpr hsome)
    by_cases hnil : front = []
    · exact hname (hnil ▸ hdir)
    · rw [ih hnil fun q hq => hnames q (List.mem_append_left _ hq)] at hdir
      cases hdir

/-- A tree that has nothing of a name leaves all of that name as it is. -/
theorem IsSource.overlay_of_absent (h : IsSource source) (hnone : source [name] = none) {rest : Location}
    (hrest : ∀ part ∈ rest, part ≠ "") : overlay source target (name :: rest) = target (name :: rest) := by
  have habsent : ∀ {more : Location}, (∀ part ∈ more, part ≠ "") → source (name :: more) = none := by
    intro more hmore
    by_cases hnil : more = []
    · rw [hnil, hnone]
    · exact h.eq_none (by rw [hnone]; simp) hnil hmore
  refine overlay_of_none (habsent hrest) fun content hc => ?_
  cases rest with
  | nil =>
    rw [show [name].dropLast = [] from rfl, h.root] at hc
    cases hc
  | cons part more =>
    rw [show (name :: part :: more).dropLast = name :: (part :: more).dropLast from rfl,
      habsent fun q hq => hrest q (List.dropLast_subset _ hq)] at hc
    cases hc

/-- What lies below a directory of a tree is a tree. -/
theorem isSource_view (htree : d.IsTree) (hdir : d.hasDirectory l = true) : IsSource (d.view l) where
  root := by
    rw [view, List.append_nil]
    exact hasDirectory_iff.mp hdir
  closed := by
    intro rel name hname hthere
    rw [view, ← List.append_assoc] at hthere
    exact hasDirectory_iff.mp (htree.closed hname hthere)

/-! ## Laying entries over a directory -/

/-- What lies below one of two locations apart is not below the other. -/
theorem Apart.not_prefix_append (h : Apart l m) (rel : Location) : ¬m <+: l ++ rel := by
  intro hpre
  rcases List.prefix_or_prefix_of_prefix hpre (List.prefix_append l rel) with hpre | hpre
  · exact h.2 hpre
  · exact h.1 hpre

theorem Apart.append (h : Apart l m) (a b : Location) : Apart (l ++ a) (m ++ b) :=
  ⟨fun hpre => Apart.not_prefix_append ⟨h.2, h.1⟩ b ((List.prefix_append l a).trans hpre),
    fun hpre => h.not_prefix_append a ((List.prefix_append m b).trans hpre)⟩

/-- A disk on which the entries of some names lie over a directory. -/
structure Lays (source : Location → Option Entry) (base : Location) (names : List String) (d d' : Disk) : Prop where
  fills : Fills base d d'
  get? : ∀ rel, (∀ part ∈ rel, IsName part) →
    d'.get? (base ++ rel) = if ∃ name ∈ names, rel.head? = some name then overlay source (d.view base) rel else d.get? (base ++ rel)

theorem Lays.nil (htree : d.IsTree) : Lays source base [] d d := ⟨.refl htree, fun rel _ => by simp⟩

/-- One entry more is laid over a directory behind another. -/
theorem Lays.cons {names : List String} (hroot : source [] = some .directory) (h : Lays source base [name] d d')
    (h' : Lays source base names d' d'') : Lays source base (name :: names) d d'' where
  fills := h.fills.trans h'.fills
  get? := by
    intro rel hrel
    rw [h'.get? rel hrel]
    by_cases hmem : ∃ n ∈ names, rel.head? = some n
    · have hmem' : ∃ n ∈ name :: names, rel.head? = some n := by
        obtain ⟨n, hn, hhead⟩ := hmem
        exact ⟨n, List.mem_cons_of_mem _ hn, hhead⟩
      rw [if_pos hmem, if_pos hmem']
      refine overlay_of_laid hroot fun r hr => ?_
      have hnames : ∀ part ∈ r, IsName part := by
        rcases hr with rfl | ⟨rfl, -⟩
        · exact hrel
        · exact fun part hpart => hrel part (List.dropLast_subset _ hpart)
      rw [view, h.get? r hnames]
      split
      · exact .inr rfl
      · exact .inl rfl
    · rw [if_neg hmem, h.get? rel hrel]
      refine if_congr ?_ rfl rfl
      constructor
      · rintro ⟨n, hn, hhead⟩
        exact ⟨n, List.mem_singleton.mp hn ▸ List.mem_cons_self, hhead⟩
      · rintro ⟨n, hn, hhead⟩
        rcases List.mem_cons.mp hn with rfl | hn
        · exact ⟨n, List.mem_singleton_self n, hhead⟩
        · exact absurd ⟨n, hn, hhead⟩ hmem

/-- Nothing is left out of several things if nothing is left out of any of them. -/
theorem copyEach_cons_eq {α : Type} {copy : Disk → α → CopyEnd × Disk} {x : α} {xs : List α}
    (h : copyEach copy (x :: xs) d = (.ended [], d'')) :
    ∃ d', copy d x = (.ended [], d') ∧ copyEach copy xs d' = (.ended [], d'') := by
  rw [copyEach] at h
  rcases hx : copy d x with ⟨f | faults, d₁⟩ <;> rw [hx] at h
  · cases (Prod.mk.inj h).1
  · simp only at h
    rcases hxs : copyEach copy xs d₁ with ⟨f | more, d₂⟩ <;> rw [hxs] at h
    · cases (Prod.mk.inj h).1
    · obtain ⟨hfaults, rfl⟩ := Prod.mk.inj h
      obtain ⟨rfl, rfl⟩ := List.append_eq_nil_iff.mp (CopyEnd.ended.inj hfaults)
      exact ⟨d₁, rfl, hxs⟩

variable (base source) in
/-- Things that are copied one after the other lie over the target if each of them does. -/
theorem copyEach_lays {α : Type} {copy : Disk → α → CopyEnd × Disk} (nameOf : α → String) (Good : Disk → Prop)
    (hroot : source [] = some .directory) (htree : ∀ {d}, Good d → d.IsTree) (hgood : ∀ {d d'}, Good d → Fills base d d' → Good d')
    {xs : List α}
    (hstep : ∀ {d x d'}, x ∈ xs → Good d → copy d x = (.ended [], d') → Lays source base [nameOf x] d d')
    (hd : Good d) (h : copyEach copy xs d = (.ended [], d')) : Lays source base (xs.map nameOf) d d' := by
  induction xs generalizing d with
  | nil =>
    cases h
    exact .nil (htree hd)
  | cons x xs ih =>
    obtain ⟨d₁, hx, hxs⟩ := copyEach_cons_eq h
    have hlays := hstep List.mem_cons_self hd hx
    exact hlays.cons hroot (ih (fun hmem => hstep (List.mem_cons_of_mem _ hmem)) (hgood hd hlays.fills) hxs)

/-! ## Copying -/

/-- What lies below a name starts with it. -/
theorem head?_eq_some_of_below (h : base ++ [name] <+: base ++ rel) : rel.head? = some name := by
  obtain ⟨rest, hrest⟩ := (List.prefix_append_right_inj base).mp h
  rw [← hrest]
  rfl

/-- What lies over the target where a file is copied to a name. -/
theorem overlay_name_cons (hsource : IsSource source) (hfile : source [name] = some (.file content)) {rest : Location}
    (hrest : ∀ part ∈ rest, part ≠ "") :
    overlay source target (name :: rest) =
      if target [name] = some .directory then if rest = [name] then some (.file content) else target (name :: rest)
      else if rest = [] then some (.file content) else target (name :: rest) := by
  have hnone : ∀ {more : Location}, more ≠ [] → (∀ part ∈ more, part ≠ "") → source (name :: more) = none := fun hne hmore =>
    hsource.eq_none (by rw [hfile]; simp) hne hmore
  match rest with
  | [] =>
    rw [overlay_of_file hfile]
    by_cases hdir : target [name] = some .directory <;> simp [hdir]
  | [part] =>
    rw [overlay_into (hnone (List.cons_ne_nil _ _) hrest) hfile]
    by_cases hdir : target [name] = some .directory <;> simp [hdir]
  | part :: next :: more =>
    have hfront : ∀ part' ∈ (part :: next :: more).dropLast, part' ≠ "" := fun q hq => hrest q (List.dropLast_subset _ hq)
    have hempty : source (name :: part :: next :: more).dropLast = none := hnone (by simp) hfront
    have hfile' : ∀ content, source (name :: part :: next :: more).dropLast ≠ some (.file content) := by
      rw [hempty]
      simp
    rw [overlay_of_none (hnone (List.cons_ne_nil _ _) hrest) hfile']
    simp

/-- A file that is copied lies over what was at the target. -/
theorem copyFile_lays (hsource : IsSource source) (hfile : source [name] = some (.file content)) (h : Target d written base)
    (hname : IsName name) {shown : String} {origin? : Option Location}
    (heq : d.copyFile name shown (under written name) origin? content = ([], d')) : Lays source base [name] d d' where
  fills := by
    have hfills := copyFile_fills h.isTree h.leads h.directory hname shown origin? content
    rw [heq] at hfills
    exact hfills.above (List.prefix_append _ _)
  get? := by
    intro rel hrel
    have hput : d' = d.put (d.slot base name) (.file content) := by
      rcases copyFile_cases h.isTree h.leads h.directory hname shown origin? content with ⟨faults, hne, hc⟩ | ⟨-, -, hc⟩
      · rw [heq] at hc
        exact absurd (Prod.mk.inj hc).1.symm hne
      · rw [heq] at hc
        exact (Prod.mk.inj hc).2
    simp only [List.mem_singleton, exists_eq_left]
    rw [hput, get?_put (slot_ne_nil d base name)]
    by_cases hhead : rel.head? = some name
    · obtain ⟨rest, rfl⟩ := List.head?_eq_some_iff.mp hhead
      have hslot : base ++ name :: rest = d.slot base name ↔
          if d.hasDirectory (base ++ [name]) = true then rest = [name] else rest = [] := by
        rw [slot]
        split <;> simp [List.append_assoc]
      rw [if_pos hhead, overlay_name_cons hsource hfile fun part hpart => (hrel part (List.mem_cons_of_mem _ hpart)).ne_empty]
      by_cases hdir : d.get? (base ++ [name]) = some .directory
      · simp only [hslot, view, hasDirectory_iff, hdir, if_true]
      · simp only [hslot, view, hasDirectory_iff, hdir, if_false]
    · rw [if_neg hhead, if_neg]
      intro hslot
      exact hhead (head?_eq_some_of_below (hslot ▸ prefix_slot d base name))

/-- A disk on which a tree that lay apart from a directory lies over it. -/
structure Overlaid (source : Location → Option Entry) (base : Location) (d d' : Disk) : Prop where
  fills : Fills base d d'
  get? : ∀ rel, (∀ part ∈ rel, IsName part) → d'.get? (base ++ rel) = overlay source (d.view base) rel

/-- What lies apart from a location is seen as before when the location has been filled. -/
theorem Fills.view (h : Fills base d d') (hapart : Apart origin base) : d'.view origin = d.view origin :=
  funext fun rel => h.get?_outside (hapart.not_prefix_append rel)

/-- When the entries of all names of a tree lie over a directory, the tree does. -/
theorem Lays.overlaid {names : List String} {d₀ : Disk} (hsource : IsSource source) (hmade : Fills base d₀ d)
    (hbelow : ∀ m, m ≠ base → d.get? m = d₀.get? m) (hdir : d.hasDirectory base = true) (h : Lays source base names d d')
    (hnames : ∀ name, IsName name → (source [name]).isSome = true → name ∈ names) : Overlaid source base d₀ d' where
  fills := hmade.trans h.fills
  get? := by
    intro rel hrel
    rw [h.get? rel hrel]
    cases rel with
    | nil =>
      rw [if_neg (by simp), List.append_nil, overlay_of_directory hsource.root]
      exact hasDirectory_iff.mp hdir
    | cons name rest =>
      have hsame : ∀ r, r ≠ [] → d.view base r = d₀.view base r := by
        intro r hr
        exact hbelow _ (by simpa using hr)
      by_cases hmem : name ∈ names
      · rw [if_pos ⟨name, hmem, rfl⟩]
        refine overlay_of_laid hsource.root fun r hr => .inl (hsame r ?_)
        rcases hr with rfl | ⟨-, hr⟩
        · exact List.cons_ne_nil _ _
        · exact hr
      · have hnone : source [name] = none := by
          by_contra hsome
          exact hmem (hnames name (hrel name List.mem_cons_self) (Option.isSome_iff_ne_none.mpr hsome))
        have hno : ¬∃ n ∈ names, (name :: rest).head? = some n := by
          rintro ⟨n, hn, hhead⟩
          cases hhead
          exact hmem hn
        rw [if_neg hno, hsource.overlay_of_absent hnone fun part hpart => (hrel part (List.mem_cons_of_mem _ hpart)).ne_empty]
        exact hsame _ (List.cons_ne_nil _ _)

/-- The entry of a name that is copied lies over the target, if whole trees do. -/
theorem copyEntry_lays {copy : Disk → Location → String → String → CopyEnd × Disk} (htree : d.IsTree)
    (hdir : d.hasDirectory origin = true)
    (ih : ∀ {written base origin source d'}, Leads d written base → d.hasDirectory origin = true → Apart origin base →
      copy d origin source written = (.ended [], d') → Overlaid (d.view origin) base d d')
    (h : Target d written base) (hapart : Apart origin base) (hname : IsName name) {shown : String}
    (heq : copyEntry copy origin shown written d name = (.ended [], d')) : Lays (d.view origin) base [name] d d' := by
  have hgoal := h.leads.under h.directory hname
  unfold copyEntry at heq
  simp only at heq
  split at heq
  · rename_i hfound
    split at heq
    · split at heq <;> cases (Prod.mk.inj heq).1
    · rename_i more d₂ hcopy
      cases heq
      have hover := ih hgoal (hasDirectory_iff.mpr hfound) (hapart.append [name] [name]) hcopy
      refine ⟨hover.fills.above (List.prefix_append _ _), ?_⟩
      intro rel hrel
      simp only [List.mem_singleton, exists_eq_left]
      by_cases hhead : rel.head? = some name
      · obtain ⟨rest, rfl⟩ := List.head?_eq_some_iff.mp hhead
        have hrest := hover.get? rest fun part hpart => hrel part (List.mem_cons_of_mem _ hpart)
        have hview : ∀ (l : Location) r, d.view (l ++ [name]) r = d.view l (name :: r) := fun l r => by simp [Disk.view]
        rw [if_pos hhead, overlay_cons (hview origin) (hview base) hfound, ← hrest]
        simp
      · rw [if_neg hhead]
        exact hover.fills.get?_outside fun hpre => hhead (head?_eq_some_of_below hpre)
  · rename_i content hfound
    generalize hcopy : copyFile d name (under shown name) (under written name) (some (origin ++ [name])) content = copied at heq
    obtain ⟨faults, d₂⟩ := copied
    cases heq
    exact copyFile_lays (isSource_view htree hdir) hfound h hname hcopy
  · cases (Prod.mk.inj heq).1

/-- A tree that is copied with nothing left out lies over what was at the target. -/
theorem copyTree_overlays {depth : Nat} {shown : String} (htree : d.IsTree) (h : Leads d written base)
    (hdir : d.hasDirectory origin = true) (hapart : Apart origin base)
    (heq : copyTree depth d origin shown written = (.ended [], d')) : Overlaid (d.view origin) base d d' := by
  induction depth generalizing d d' written base origin shown with
  | zero => cases (Prod.mk.inj heq).1
  | succ depth ih =>
    rw [copyTree] at heq
    rcases ensureDirectory_fills htree h with ⟨d₁, hmade, hfills, hbase, hbelow⟩ | ⟨f, hmade⟩
    · simp only [hmade] at heq
      have hsource := isSource_view htree hdir
      -- On the way, the tree that is copied is seen as it was at first.
      have hlays := copyEach_lays base (d.view origin) id
        (fun d₂ => Target d₂ written base ∧ d₂.view origin = d.view origin ∧ d₂.hasDirectory origin = true) hsource.root
        (fun hgood => hgood.1.isTree)
        (fun hgood hf => ⟨hgood.1.fills hf, (hf.view hapart).trans hgood.2.1, hf.grows.directories origin hgood.2.2⟩)
        (fun hmem hgood hcopy => by
          rw [← hgood.2.1]
          exact copyEntry_lays hgood.1.isTree hgood.2.2 (fun hl hd ha hc => ih hgood.1.isTree hl hd ha hc) hgood.1 hapart
            (htree.isName_of_mem_names hmem) hcopy)
        ⟨⟨hfills.isTree, h.grows hfills.grows, hbase⟩, hfills.view hapart, hfills.grows.directories origin hdir⟩ heq
      rw [List.map_id] at hlays
      exact hlays.overlaid hsource hfills hbelow hbase fun name hname hthere => mem_names.mpr ⟨hname.ne_empty, hthere⟩
    · rw [hmade] at heq
      cases (Prod.mk.inj heq).1

/-- A copy that answers well has ended without faults. -/
theorem copyAnswer_eq_ok {x : CopyEnd × Disk} (h : copyAnswer x = (.ok (), d')) : x = (.ended [], d') := by
  obtain ⟨outcome, d⟩ := x
  cases outcome with
  | broken f => cases (Prod.mk.inj h).1
  | ended faults =>
    cases faults with
    | nil => rw [← (Prod.mk.inj h).2]
    | cons fault more => cases (Prod.mk.inj h).1

/-- A directory that is copied lies over the target; what is no directory is not copied. -/
theorem copyStatic_eq_ok {static target : Path} (htree : d.IsTree) (h : Leads d target.toString base)
    (hapart : ∀ l, d.locate static = .ok l → Apart l base) (heq : d.copyStatic static target = (.ok (), d')) :
    (d.isDirectory static = .ok false ∧ d' = d) ∨
    ∃ l, d.isDirectory static = .ok true ∧ d.locate static = .ok l ∧ Overlaid (d.view l) base d d' := by
  unfold copyStatic at heq
  split at heq
  · cases (Prod.mk.inj heq).1
  · rename_i hno
    exact .inl ⟨hno, (Prod.mk.inj heq).2.symm⟩
  · rename_i hyes
    obtain ⟨l, hl, hdir⟩ := isDirectory_eq_ok_iff.mp hyes
    rw [hl] at heq
    exact .inr ⟨l, hyes, hl, copyTree_overlays htree h hdir (hapart l hl) (copyAnswer_eq_ok heq)⟩

/-- A directory of some files. -/
def bundle (files : List (String × String)) : Location → Option Entry
  | [] => some .directory
  | [name] => (files.find? (·.1 == name)).map fun file => .file (Text.Utf8.encode file.2)
  | _ => none

/-- A directory of files is a tree seen from its root. -/
theorem isSource_bundle (files : List (String × String)) : IsSource (bundle files) where
  root := rfl
  closed := by
    intro rel name _ hthere
    cases rel with
    | nil => rfl
    | cons part more =>
      cases more with
      | nil => cases hthere
      | cons next more => cases hthere

/-- The files of a directory are there under their names, if these are distinct. -/
theorem bundle_singleton {files : List (String × String)} (hdistinct : (files.map (·.1)).Nodup) {file : String × String}
    (hmem : file ∈ files) : bundle files [file.1] = some (.file (Text.Utf8.encode file.2)) := by
  have hfind : files.find? (·.1 == file.1) = some file := by
    induction files with
    | nil => cases hmem
    | cons first rest ih =>
      obtain ⟨hfirst, hrest⟩ := List.nodup_cons.mp hdistinct
      rcases List.mem_cons.mp hmem with rfl | hmem
      · simp
      · have hne : first.1 ≠ file.1 := fun heq => hfirst (List.mem_map.mpr ⟨file, hmem, heq.symm⟩)
        rw [List.find?_cons_of_neg (by simpa using hne)]
        exact ih hrest hmem
  rw [bundle, hfind]
  rfl

/-- The files of such a directory are those that it is made of. -/
theorem bundle_eq_file_iff {files : List (String × String)} (hdistinct : (files.map (·.1)).Nodup) :
    bundle files rel = some (.file content) ↔ ∃ file ∈ files, rel = [file.1] ∧ content = Text.Utf8.encode file.2 := by
  constructor
  · intro hfile
    match rel with
    | [] => cases hfile
    | [name] =>
      obtain ⟨file, hfound, hcontent⟩ := Option.map_eq_some_iff.mp hfile
      have hname := List.find?_some hfound
      exact ⟨file, List.mem_of_find?_eq_some hfound, by rw [eq_of_beq hname], (Entry.file.inj hcontent).symm⟩
    | _ :: _ :: _ => cases hfile
  · rintro ⟨file, hmem, rfl, rfl⟩
    exact bundle_singleton hdistinct hmem

/-- One of some files that is copied lies over the target. -/
theorem copyNote_lays {file : String × String} (hsource : IsSource source)
    (hfile : source [file.1] = some (.file (Text.Utf8.encode file.2))) (h : Target d written base) (hname : IsName file.1) {shown : String}
    (heq : copyNote shown written d file = (.ended [], d')) : Lays source base [file.1] d d' := by
  unfold copyNote at heq
  generalize hcopy : copyFile d file.1 (under shown file.1) (under written file.1) none (Text.Utf8.encode file.2) = copied at heq
  obtain ⟨faults, d₂⟩ := copied
  cases heq
  exact copyFile_lays hsource hfile h hname hcopy

/-- Files that are copied with nothing left out lie over what was at the target. -/
theorem copyFiles_eq_ok {files : List (String × String)} {target : Path} {shown : String} (htree : d.IsTree)
    (h : Leads d target.toString base) (hnames : ∀ file ∈ files, IsName file.1) (hdistinct : (files.map (·.1)).Nodup)
    (heq : d.copyFiles shown files target = (.ok (), d')) : Overlaid (bundle files) base d d' := by
  unfold copyFiles at heq
  rcases ensureDirectory_fills htree h with ⟨d₁, hmade, hfills, hbase, hbelow⟩ | ⟨f, hmade⟩
  · simp only [hmade] at heq
    have hsource := isSource_bundle files
    have hlays := copyEach_lays base (bundle files) (fun file : String × String => file.1)
      (fun d₂ => Target d₂ target.toString base) hsource.root
      (fun hgood => hgood.isTree) (fun hgood hf => hgood.fills hf)
      (fun hmem hgood hcopy => copyNote_lays hsource (bundle_singleton hdistinct hmem) hgood (hnames _ hmem) hcopy)
      ⟨hfills.isTree, h.grows hfills.grows, hbase⟩ (copyAnswer_eq_ok heq)
    refine hlays.overlaid hsource hfills hbelow hbase fun name hname hthere => ?_
    rw [bundle, Option.isSome_map, List.find?_isSome] at hthere
    obtain ⟨file, hfile, heq⟩ := hthere
    exact List.mem_map.mpr ⟨file, hfile, eq_of_beq heq⟩
  · rw [hmade] at heq
    cases (Prod.mk.inj heq).1

end IconForge.Disk
