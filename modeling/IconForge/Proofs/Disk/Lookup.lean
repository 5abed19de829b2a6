import IconForge.Disk.Basic
import Mathlib.Data.List.Induction

/-!
# Looking entries up

What is at a location behind each change of the entries, and what a disk is that files and directories make up: every entry has a
name that an entry can have, and lies in a directory (`IsTree`). A working directory that has been removed stays where no path leads,
so that it is left out of both.
-/

namespace IconForge.Disk

/-- A name that an entry can have. -/
structure IsName (name : String) : Prop where
  part : Path.isPart name = true
  ne_up : name ≠ ".."
  noSlash : '/' ∉ name.toList
  noZeroByte : '\x00' ∉ name.toList
  short : name.utf8ByteSize ≤ nameLimit

/-- There is something at a location. -/
def IsThere (d : Disk) (l : Location) : Prop := (d.get? l).isSome = true

instance : DecidablePred IsName := fun name =>
  decidable_of_iff (Path.isPart name = true ∧ name ≠ ".." ∧ '/' ∉ name.toList ∧ '\x00' ∉ name.toList ∧ name.utf8ByteSize ≤ nameLimit)
    ⟨fun ⟨h₁, h₂, h₃, h₄, h₅⟩ => ⟨h₁, h₂, h₃, h₄, h₅⟩, fun h => ⟨h.part, h.ne_up, h.noSlash, h.noZeroByte, h.short⟩⟩

/-- A disk whose entries have names, and each lies in a directory. What is left of a working directory is no file. -/
structure IsTree (d : Disk) : Prop where
  named : ∀ {l}, isStray l = false → d.IsThere l → ∀ name ∈ l, IsName name
  closed : ∀ {l name}, name ≠ "" → d.IsThere (l ++ [name]) → d.hasDirectory l = true
  stray : ∀ {l content}, isStray l = true → d.get? l ≠ some (.file content)

variable {d : Disk} {l m : Location} {e : Entry}

/-! ## Strays -/

/-- A location is stray when its last name is empty. -/
@[simp] theorem isStray_append_singleton (l : Location) (name : String) : isStray (l ++ [name]) = decide (name = "") := by
  simp [isStray]

@[simp] theorem isStray_nil : isStray [] = false := rfl

theorem IsName.ne_empty {name : String} (h : IsName name) : name ≠ "" := by
  rintro rfl
  exact absurd h.part (by decide)

/-- A location of proper names is not stray. -/
theorem isStray_of_forall_ne (h : ∀ name ∈ l, name ≠ "") : isStray l = false := by
  rcases List.eq_nil_or_concat l with rfl | ⟨front, name, rfl⟩
  · rfl
  · rw [List.concat_eq_append, isStray_append_singleton]
    exact decide_eq_false (h name (by simp))

/-- Names lead to no stray. -/
theorem isStray_append {rel : Location} (hl : isStray l = false) (h : ∀ name ∈ rel, IsName name) : isStray (l ++ rel) = false := by
  rcases List.eq_nil_or_concat rel with rfl | ⟨front, name, rfl⟩
  · rwa [List.append_nil]
  · have hname := (h name (by simp)).ne_empty
    rw [List.concat_eq_append, ← List.append_assoc, isStray_append_singleton]
    exact decide_eq_false hname

/-! ## Lookups -/

theorem hasDirectory_iff : d.hasDirectory l = true ↔ d.get? l = some .directory := by
  simp [hasDirectory]

theorem isThere_of_get? (h : d.get? l = some e) : d.IsThere l := by
  rw [IsThere, h]
  rfl

theorem get?_eq_none_of_not_isThere (h : ¬d.IsThere l) : d.get? l = none := by
  simpa [IsThere] using h

theorem isThere_of_hasDirectory (h : d.hasDirectory l = true) : d.IsThere l := isThere_of_get? (hasDirectory_iff.mp h)

/-- Below the root the first entry at a location counts. -/
theorem get?_eq_find? (hl : l ≠ []) : d.get? l = (d.entries.find? (·.1 == l)).map (·.2) := by
  simp [get?, hl]

/-- What is at a location is an entry, or it is the root. -/
theorem isThere_iff_mem (hl : l ≠ []) : d.IsThere l ↔ ∃ x ∈ d.entries, x.1 = l := by
  rw [IsThere, get?_eq_find? hl, Option.isSome_map, List.find?_isSome]
  simp only [beq_iff_eq]

/-- A disk goes down as far as there is anything. -/
theorem height_le_iff {n : Nat} : d.height ≤ n ↔ ∀ l, d.IsThere l → l.length ≤ n := by
  have hmax : ∀ lengths : List Nat, lengths.foldr max 0 ≤ n ↔ ∀ m ∈ lengths, m ≤ n := by
    intro lengths
    induction lengths with
    | nil => simp
    | cons m rest ih => rw [List.foldr_cons, Nat.max_le, ih, List.forall_mem_cons]
  rw [height, hmax, List.forall_mem_map]
  constructor
  · intro h l hthere
    by_cases hl : l = []
    · rw [hl]
      exact Nat.zero_le n
    · obtain ⟨x, hx, rfl⟩ := (isThere_iff_mem hl).mp hthere
      exact h x hx
  · intro h x hx
    by_cases hl : x.1 = []
    · rw [hl]
      exact Nat.zero_le n
    · exact h x.1 ((isThere_iff_mem hl).mpr ⟨x, hx, rfl⟩)

/-- An entry that has been put is there, and all others are as they were. -/
theorem get?_put (hl : l ≠ []) : (d.put l e).get? m = if m = l then some e else d.get? m := by
  by_cases hm : m = []
  · rw [if_neg (hm ▸ Ne.symm hl), hm]
    rfl
  rw [get?_eq_find? hm, get?_eq_find? hm, put]
  generalize d.entries = entries
  induction entries with
  | nil =>
    by_cases h : m = l
    · simp [putEntry, h]
    · simp [putEntry, h, Ne.symm h]
  | cons x rest ih =>
    rw [putEntry]
    by_cases hx : x.1 = l
    · by_cases h : m = l
      · simp [hx, h]
      · simp [hx, h, Ne.symm h]
    · by_cases hxm : x.1 = m
      · have hne : m ≠ l := fun h => hx (hxm.trans h)
        simp [hxm, hne]
      · rw [if_neg hx, List.find?_cons_of_neg (by simpa using hxm), ih, List.find?_cons_of_neg (by simpa using hxm)]

/-- Entries that are kept are as they were, and the others are gone. -/
theorem get?_filter (d : Disk) (keep : Location → Bool) (hm : m ≠ []) :
    get? { d with entries := d.entries.filter fun x => keep x.1 } m = if keep m = true then d.get? m else none := by
  rw [get?_eq_find? hm, get?_eq_find? hm, List.find?_filter]
  split
  · rename_i hkeep
    congr 2
    funext x
    by_cases hx : x.1 = m
    · simp [hx, hkeep]
    · simp [hx]
  · rename_i hkeep
    rw [List.find?_eq_none.mpr]
    · rfl
    · intro x _
      by_cases hx : x.1 = m
      · simp [hx, hkeep]
      · simp [hx]

/-- Keeping a working directory that is gone changes nothing that paths lead to. -/
theorem get?_settled (d : Disk) (hm : isStray m = false) : d.settled.get? m = d.get? m := by
  unfold settled
  split
  · rfl
  by_cases hnil : m = []
  · rw [hnil]
    rfl
  have hstray : d.workingDirectory.dropLast ++ [""] ≠ m := by
    rintro rfl
    simp at hm
  rw [get?_eq_find? hnil, get?_eq_find? hnil, List.find?_append]
  simp [hstray]

/-- Settling a disk makes no files. -/
theorem file_of_settled {content : List UInt8} (h : d.settled.get? m = some (.file content)) : d.get? m = some (.file content) := by
  unfold settled at h
  split at h
  · exact h
  by_cases hnil : m = []
  · rw [hnil] at h
    cases h
  rw [get?_eq_find? hnil, List.find?_append, Option.map_or] at h
  rw [get?_eq_find? hnil]
  cases hfound : d.entries.find? (·.1 == m) with
  | some x =>
    rw [hfound] at h
    exact h
  | none =>
    rw [hfound, Option.map_none, Option.none_or, Option.map_eq_some_iff] at h
    obtain ⟨x, hx, hfile⟩ := h
    rw [List.mem_singleton.mp (List.mem_of_find?_eq_some hx)] at hfile
    cases hfile

/-- Below a location is what it is a proper start of. -/
theorem isBelow_iff : isBelow m l = true ↔ l <+: m ∧ m ≠ l := by
  simp [isBelow]

/-- A file that is still there when some entries have been taken out was there before. -/
theorem file_of_filter (keep : Location → Bool) {content : List UInt8}
    (h : (settled { d with entries := d.entries.filter fun x => keep x.1 }).get? m = some (.file content)) :
    d.get? m = some (.file content) := by
  have hkept := file_of_settled h
  by_cases hnil : m = []
  · rw [hnil] at hkept
    cases hkept
  rw [get?_filter d keep hnil] at hkept
  split at hkept
  · exact hkept
  · cases hkept

/-- Clearing a location takes out what lies below it. -/
theorem get?_clear (d : Disk) (l : Location) (hm : isStray m = false) :
    (d.clear l).get? m = if isBelow m l = true then none else d.get? m := by
  rw [clear, get?_settled _ hm]
  by_cases hnil : m = []
  · have hbelow : ¬isBelow [] l = true := by
      rw [isBelow_iff]
      rintro ⟨hpre, hne⟩
      exact hne (List.prefix_nil.mp hpre).symm
    rw [hnil, if_neg hbelow]
    rfl
  · rw [get?_filter d (fun x => !isBelow x l) hnil]
    cases isBelow m l <;> rfl

/-- Erasing a location takes out the entry there and what lies below it. -/
theorem get?_erase (d : Disk) (hl : l ≠ []) (hm : isStray m = false) :
    (d.erase l).get? m = if l <+: m then none else d.get? m := by
  rw [erase, get?_settled _ hm]
  by_cases hnil : m = []
  · rw [hnil, if_neg fun hpre => hl (List.prefix_nil.mp hpre)]
    rfl
  · rw [get?_filter d (fun x => !l.isPrefixOf x) hnil]
    cases hpre : List.isPrefixOf l m with
    | true => rw [if_pos (List.isPrefixOf_iff_prefix.mp hpre)]; rfl
    | false => rw [if_neg fun h => Bool.eq_false_iff.mp hpre (List.isPrefixOf_iff_prefix.mpr h)]; rfl

/-! ## Names in a directory -/

/-- The name of a location below another is its last one. -/
theorem nameBelow?_eq_some {base : Location} {name : String} : nameBelow? base l = some name ↔ l = base ++ [name] := by
  unfold nameBelow?
  rcases List.eq_nil_or_concat l with rfl | ⟨front, last, rfl⟩
  · simp
  · simp only [List.concat_eq_append, List.getLast?_append, List.getLast?_singleton, Option.some_or, List.dropLast_concat,
      List.append_singleton_inj]
    split
    · simp [*]
    · simp [*]

/-- The names in a directory are those of the entries right below it. -/
theorem mem_names {name : String} : name ∈ d.names l ↔ name ≠ "" ∧ d.IsThere (l ++ [name]) := by
  rw [isThere_iff_mem (by simp), names, (d.platform.order_perm l _).mem_iff, List.mem_eraseDups, List.mem_filter, List.mem_filterMap]
  simp only [nameBelow?_eq_some, bne_iff_ne]
  exact And.comm

/-! ## Trees -/

namespace IsTree

variable (h : d.IsTree)
include h

/-- All that lie above an entry are directories. -/
theorem hasDirectory_of_isThere {rel : Location} (hrel : rel ≠ []) (hnames : ∀ name ∈ rel, name ≠ "") (hthere : d.IsThere (l ++ rel)) :
    d.hasDirectory l = true := by
  induction rel using List.reverseRecOn with
  | nil => exact absurd rfl hrel
  | append_singleton front name ih =>
    rw [← List.append_assoc] at hthere
    have hfront := h.closed (hnames name (by simp)) hthere
    by_cases hnil : front = []
    · rwa [hnil, List.append_nil] at hfront
    · exact ih hnil (fun part hpart => hnames part (List.mem_append_left _ hpart)) (isThere_of_hasDirectory hfront)

/-- An entry in a directory has a name. -/
theorem isName_of_mem_names {name : String} (hmem : name ∈ d.names l) : IsName name := by
  obtain ⟨hne, hthere⟩ := mem_names.mp hmem
  exact h.named (by simpa using hne) hthere name (by simp)

/-- A tree stays one when an entry is put into a directory, and no file takes the place of a directory. -/
theorem put {name : String} (hname : IsName name) (hdir : d.hasDirectory l = true) (hl : isStray l = false)
    (hplace : e = .directory ∨ d.get? (l ++ [name]) ≠ some .directory) : (d.put (l ++ [name]) e).IsTree := by
  have hne : l ++ [name] ≠ [] := by simp
  constructor
  case named =>
    intro m hm hthere part hpart
    by_cases heq : m = l ++ [name]
    · rw [heq, List.mem_append] at hpart
      rcases hpart with hpart | hpart
      · exact h.named hl (isThere_of_hasDirectory hdir) part hpart
      · rw [List.mem_singleton.mp hpart]
        exact hname
    · rw [IsThere, get?_put hne, if_neg heq] at hthere
      exact h.named hm hthere part hpart
  case closed =>
    intro m part hpart hthere
    rw [IsThere, get?_put hne] at hthere
    have hm : d.hasDirectory m = true := by
      by_cases heq : m ++ [part] = l ++ [name]
      · rw [(List.append_singleton_inj.mp heq).1]
        exact hdir
      · rw [if_neg heq] at hthere
        exact h.closed hpart hthere
    rw [hasDirectory_iff, get?_put hne]
    split
    · rename_i hml
      rw [hml, hasDirectory_iff] at hm
      rcases hplace with rfl | hplace
      · rfl
      · exact absurd hm hplace
    · exact hasDirectory_iff.mp hm
  case stray =>
    intro m content hm
    have hm' : m ≠ l ++ [name] := by
      rintro rfl
      rw [isStray_append_singleton] at hm
      exact hname.ne_empty (of_decide_eq_true hm)
    rw [get?_put hne, if_neg hm']
    exact h.stray hm

/-- An entry with a name lies where a path leads. -/
theorem not_isStray_of_isThere {name : String} (hname : name ≠ "") (hthere : d.IsThere (l ++ [name])) : isStray l = false := by
  have hnamed : ∀ part ∈ l, IsName part := fun part hpart =>
    h.named (by simpa using hname) hthere part (List.mem_append_left _ hpart)
  simpa using isStray_append isStray_nil hnamed

/-- A tree stays one when all entries of which some property holds are taken out, if it is handed down. -/
theorem of_get? {d' : Disk} {gone : Location → Prop} [DecidablePred gone]
    (hget : ∀ m, isStray m = false → d'.get? m = if gone m then none else d.get? m)
    (hdown : ∀ m name, gone m → gone (m ++ [name]))
    (hfiles : ∀ {m content}, d'.get? m = some (.file content) → d.get? m = some (.file content)) : d'.IsTree := by
  have hold : ∀ {m}, isStray m = false → d'.IsThere m → ¬gone m ∧ d.IsThere m := by
    intro m hm hthere
    rw [IsThere, hget m hm] at hthere
    split at hthere
    · cases hthere
    · exact ⟨‹_›, hthere⟩
  constructor
  case named => exact fun hm hthere => h.named hm (hold hm hthere).2
  case closed =>
    intro m part hpart hthere
    obtain ⟨hkept, hthere⟩ := hold (by simpa using hpart) hthere
    rw [hasDirectory_iff, hget m (h.not_isStray_of_isThere hpart hthere), if_neg fun hgone => hkept (hdown m part hgone)]
    exact hasDirectory_iff.mp (h.closed hpart hthere)
  case stray => exact fun hm hfile => h.stray hm (hfiles hfile)

theorem clear (l : Location) : (d.clear l).IsTree := by
  refine h.of_get? (fun m hm => get?_clear d l hm) (fun m name hbelow => ?_)
    (file_of_filter fun x => !isBelow x l)
  rw [isBelow_iff] at hbelow ⊢
  refine ⟨hbelow.1.trans (List.prefix_append _ _), fun heq => ?_⟩
  have hlen := hbelow.1.length_le
  rw [← heq, List.length_append, List.length_singleton] at hlen
  omega

theorem erase (hl : l ≠ []) : (d.erase l).IsTree :=
  h.of_get? (fun _ hm => get?_erase d hl hm) (fun _ _ hpre => hpre.trans (List.prefix_append _ _))
    (file_of_filter fun x => !l.isPrefixOf x)

/-- A file lies where a path leads. -/
theorem not_isStray_of_file {content : List UInt8} (hfile : d.get? l = some (.file content)) : isStray l = false := by
  cases hl : isStray l with
  | false => rfl
  | true => exact absurd hfile (h.stray hl)

/-- The parts of a file's location are names. -/
theorem isName_of_file {content : List UInt8} {rel : Location} (hfile : d.get? (l ++ rel) = some (.file content)) :
    ∀ part ∈ rel, IsName part := fun part hpart =>
  h.named (h.not_isStray_of_file hfile) (isThere_of_get? hfile) part (List.mem_append_right l hpart)

end IsTree

/-- A disk is a tree if its entries have names and each lies in a directory. -/
theorem isTree_of_entries (h : ∀ x ∈ d.entries, (∀ name ∈ x.1, IsName name) ∧ d.hasDirectory x.1.dropLast = true) : d.IsTree := by
  have hentry : ∀ {l e}, l ≠ [] → d.get? l = some e → ∃ x ∈ d.entries, x.1 = l := by
    intro l e hl hget
    rw [get?_eq_find? hl, Option.map_eq_some_iff] at hget
    obtain ⟨x, hx, -⟩ := hget
    have heq := List.find?_some hx
    exact ⟨x, List.mem_of_find?_eq_some hx, eq_of_beq heq⟩
  have hnamed : ∀ {l}, d.IsThere l → ∀ name ∈ l, IsName name := by
    intro l hthere
    obtain ⟨e, hget⟩ := Option.isSome_iff_exists.mp hthere
    by_cases hl : l = []
    · simp [hl]
    · obtain ⟨x, hx, rfl⟩ := hentry hl hget
      exact (h x hx).1
  constructor
  case named => exact fun _ hthere => hnamed hthere
  case closed =>
    intro l name _ hthere
    obtain ⟨e, hget⟩ := Option.isSome_iff_exists.mp hthere
    obtain ⟨x, hx, hxl⟩ := hentry (by simp) hget
    have hdir := (h x hx).2
    rwa [hxl, List.dropLast_concat] at hdir
  case stray =>
    intro l content hl hfile
    obtain ⟨front, rfl⟩ := List.getLast?_eq_some_iff.mp (of_decide_eq_true hl)
    exact (hnamed (isThere_of_get? hfile) "" (by simp)).ne_empty rfl

end IconForge.Disk
