import IconForge.Proofs.Disk.Alike
import IconForge.Proofs.Settings.Loading

/-!
# Values that the command line overrides

What a settings file says for a key is not looked at when the command line says it as well, as long as it is a value that can be taken:
two documents that agree but for such keys (`AgreeBut`) make the same settings (`settingsFrom_eq`), and so does the file that holds the
one or the other (`requestSettings_eq`).
-/

namespace IconForge.SettingsFile

open Text Yaml Component CommandLine

variable {α β γ : Type} {c c' : Document} {x? x'? : Option Datum} {request : BuildRequest}

/-! ## The same values in two documents -/

/-- A relation of the values of two documents under which they have the same shapes and their parts are related. -/
structure Corresponds (c c' : Document) (r : Datum → Datum → Prop) : Prop where
  scalar : ∀ {s x'}, r (.scalar s) x' → x' = .scalar s
  list : ∀ {items x'}, r (.list items) x' → ∃ items', x' = .list items' ∧
    List.Forall₂ (fun id id' => r (c.get id) (c'.get id')) items items'
  mapping : ∀ {members x'}, r (.mapping members) x' → ∃ members', x' = .mapping members' ∧
    ∀ name, Option.Rel r (c.member? (.mapping members) name) (c'.member? (.mapping members') name)
  pairs : ∀ {members x'}, r (.pairs members) x' → ∃ members', x' = .pairs members' ∧
    List.Forall₂ (fun m m' => r (c.get m.1) (c'.get m'.1) ∧ r (c.get m.2) (c'.get m'.2)) members members'
  set : ∀ {x'}, r .set x' → x' = .set

/-- The values of two documents that may be missing are both missing, or they are the same through and through. -/
def SameValue (c c' : Document) (x? x'? : Option Datum) : Prop := ∃ r, Corresponds c c' r ∧ Option.Rel r x? x'?

/-- Missing values are the same, and so are equal scalars. -/
theorem sameValue_of_isKey (h : ∀ x, x? = some x → x.isKey = true) : SameValue c c' x? x? := by
  refine ⟨fun x x' => x' = x ∧ x.isKey = true, ⟨fun h => h.1, ?_, ?_, ?_, ?_⟩, ?_⟩
  case refine_5 =>
    cases x? with
    | none => exact .none
    | some x => exact .some ⟨rfl, h x rfl⟩
  all_goals
    intros
    simp_all [Datum.isKey]

/-- The same values have the same members. -/
theorem SameValue.member? (h : SameValue c c' x? x'?) (name : String) :
    SameValue c c' (x?.bind fun x => c.member? x name) (x'?.bind fun x' => c'.member? x' name) := by
  obtain ⟨r, hr, hrel⟩ := h
  refine ⟨r, hr, ?_⟩
  cases hrel with
  | none => exact .none
  | @some x x' h =>
    cases x with
    | scalar s =>
      rw [hr.scalar h]
      exact .none
    | list items =>
      obtain ⟨items', rfl, -⟩ := hr.list h
      exact .none
    | mapping members =>
      obtain ⟨members', rfl, hmembers⟩ := hr.mapping h
      exact hmembers name
    | pairs members =>
      obtain ⟨members', rfl, -⟩ := hr.pairs h
      exact .none
    | set =>
      rw [hr.set h]
      exact .none

/-- What is read of a value is the same for the same values, if all collections are read as one other answer. -/
theorem SameValue.congr (h : SameValue c c' x? x'?) (read : Option Datum → γ) (other : γ)
    (hread : ∀ x : Datum, x.isKey = false → read (some x) = other) : read x'? = read x? := by
  have hcollections : ∀ x x' : Datum, x.isKey = false → x'.isKey = false → read (some x') = read (some x) := fun x x' hx hx' =>
    (hread x' hx').trans (hread x hx).symm
  obtain ⟨r, hr, hrel⟩ := h
  cases hrel with
  | none => rfl
  | @some x x' h =>
    cases x with
    | scalar s => rw [hr.scalar h]
    | list items =>
      obtain ⟨items', rfl, -⟩ := hr.list h
      exact hcollections _ _ rfl rfl
    | mapping members =>
      obtain ⟨members', rfl, -⟩ := hr.mapping h
      exact hcollections _ _ rfl rfl
    | pairs members =>
      obtain ⟨members', rfl, -⟩ := hr.pairs h
      exact hcollections _ _ rfl rfl
    | set => rw [hr.set h]

/-- No list and no mapping is a text. -/
theorem textOf?_of_collection {x : Datum} (h : x.isKey = false) : textOf? x = .ok none := by
  cases x with
  | scalar s => cases h
  | _ => rfl

theorem boolOf?_of_collection {x : Datum} (h : x.isKey = false) : boolOf? (some x) = none := by
  cases x with
  | scalar s => cases h
  | _ => rfl

theorem slots_of_collection {x : Datum} (h : x.isKey = false) : slots (some x) = .error (.refused .slotsNotWhole) := by
  cases x with
  | scalar s => cases h
  | _ => rfl

theorem directoryOf?_of_collection (homes : Homes) (root : Path) {x : Datum} (h : x.isKey = false) :
    directoryOf? homes root (some x) = .ok none :=
  directoryOf?_of_forall_not fun written hnames => by
    rw [Option.some.inj hnames.1] at h
    cases h

/-- Equal values are the same text. -/
theorem SameValue.textOf?_eq {x x' : Datum} (h : SameValue c c' (some x) (some x')) : textOf? x' = textOf? x :=
  h.congr (fun x? => (x?.map textOf?).getD (.ok none)) (.ok none) fun _ => textOf?_of_collection

theorem SameValue.textOr_eq (h : SameValue c c' x? x'?) (default : String) : textOr default x'? = textOr default x? :=
  h.congr (textOr default) (.ok default) fun x hx => by
    rw [textOr, textOf?_of_collection hx]
    rfl

theorem SameValue.boolOf?_eq (h : SameValue c c' x? x'?) : boolOf? x'? = boolOf? x? := h.congr boolOf? none fun _ => boolOf?_of_collection

theorem SameValue.slots_eq (h : SameValue c c' x? x'?) : slots x'? = slots x? := h.congr slots _ fun _ => slots_of_collection

theorem SameValue.directoryOf?_eq (h : SameValue c c' x? x'?) (homes : Homes) (root : Path) :
    directoryOf? homes root x'? = directoryOf? homes root x? := h.congr _ _ fun _ => directoryOf?_of_collection homes root

/-- The texts of the same lists are the same. -/
theorem SameValue.textsOf_eq (h : SameValue c c' x? x'?) : textsOf (some c') x'? = textsOf (some c) x? := by
  obtain ⟨r, hr, hrel⟩ := h
  cases hrel with
  | none => rfl
  | @some x x' h =>
    cases x with
    | scalar s =>
      rw [hr.scalar h]
      cases s <;> rfl
    | list items =>
      obtain ⟨items', rfl, hitems⟩ := hr.list h
      have htexts : items'.mapM (fun id => textOf? (c'.get id)) = items.mapM fun id => textOf? (c.get id) := by
        clear h
        induction hitems with
        | nil => rfl
        | cons hitem _ ih => rw [List.mapM_cons, List.mapM_cons, ih, SameValue.textOf?_eq ⟨r, hr, .some hitem⟩]
      simp only [textsOf, htexts]
    | mapping members =>
      obtain ⟨members', rfl, -⟩ := hr.mapping h
      rfl
    | pairs members =>
      obtain ⟨members', rfl, -⟩ := hr.pairs h
      rfl
    | set =>
      rw [hr.set h]
      rfl

/-! ## Documents that agree but for what the command line says -/

/-- The names at the root whose values the command line says itself. -/
def Overrides (request : BuildRequest) (name : String) : Prop :=
  name = "input_dir" ∧ request.inputDir?.isSome = true ∨ name = "output_dir" ∧ request.outputDir?.isSome = true ∨
    name = "typescript" ∧ request.typescript = true ∨ name = "pattern" ∧ request.pattern?.isSome = true ∨
    name = "naming" ∧ request.naming?.isSome = true

/-- Two documents agree but for the values that the command line says itself, of which one lies in the mapping of the formatter. -/
structure AgreeBut (request : BuildRequest) (c c' : Document) : Prop where
  value : ∀ name, ¬Overrides request name → name ≠ "formatter" → SameValue c c' (valueOf? (some c) name) (valueOf? (some c') name)
  formatter : ∀ name, ¬(name = "enabled" ∧ request.noFormat = true) →
    SameValue c c' (valueIn? (some c) "formatter" name) (valueIn? (some c') "formatter" name)

/-- The values that the command line overrides could be taken, if it said nothing: the pattern is not a number with too many digits, and
the naming is known. -/
structure Acceptable (request : BuildRequest) (c : Document) : Prop where
  pattern : request.pattern?.isSome = true → ¬EndlessAt (valueOf? (some c) "pattern")
  naming : request.naming?.isSome = true → ∃ word naming, textOr "preserve" (valueOf? (some c) "naming") = .ok word ∧
    Naming.ofString? word = some naming

/-! ## Steps side by side -/

/-- Two steps of loading that fail alike, or give answers that are related. -/
inductive Loaded (r : α → α → Prop) : Loading α → Loading α → Prop where
  | failed (e : LoadFailure) : Loaded r (.error e) (.error e)
  | given {a a' : α} : r a a' → Loaded r (.ok a) (.ok a')

/-- Equal loadings are related by equality. -/
theorem Loaded.of_eq {x x' : Loading α} (h : x' = x) : Loaded Eq x x' := by
  subst h
  cases x' with
  | error e => exact .failed e
  | ok a => exact .given rfl

/-- Loadings that are related by equality are equal. -/
theorem Loaded.eq {x x' : Loading α} (h : Loaded Eq x x') : x' = x := by
  cases h with
  | failed e => rfl
  | given ha => rw [ha]

/-- Steps behind answers that are related fail alike or give related answers. -/
theorem Loaded.bind {r : α → α → Prop} {q : β → β → Prop} {x x' : Loading α} {f f' : α → Loading β} (h : Loaded r x x')
    (hf : ∀ a a', r a a' → Loaded q (f a) (f' a')) : Loaded q (x >>= f) (x' >>= f') := by
  cases h with
  | failed e => exact .failed e
  | given ha => exact hf _ _ ha

/-! ## Drafts -/

/-- Drafts that agree but for what the command line says. -/
structure SameDraft (request : BuildRequest) (d d' : SettingsDraft) : Prop where
  rest : d' = { d with
    typescript := d'.typescript, pattern := d'.pattern, naming := d'.naming
    formatter := { d.formatter with enabled := d'.formatter.enabled } }
  typescript : request.typescript = false → d'.typescript = d.typescript
  pattern : request.pattern? = none → d'.pattern = d.pattern
  naming : request.naming? = none → d'.naming = d.naming
  known : request.naming?.isSome = true → (Naming.ofString? d.naming).isSome = true ∧ (Naming.ofString? d'.naming).isSome = true
  enabled : request.noFormat = false → d'.formatter.enabled = d.formatter.enabled

section
variable (h : AgreeBut request c c') (hc : Acceptable request c) (hc' : Acceptable request c')
include h

/-- A directory that is given, or that both files name alike. -/
theorem directory?_eq (homes : Homes) (root : Path) {name : String} {given? : Option Path}
    (hname : given? = none → ¬Overrides request name) (hne : name ≠ "formatter") :
    directory? homes root given? (valueOf? (some c') name) = directory? homes root given? (valueOf? (some c) name) := by
  cases given? with
  | some p => rfl
  | none => exact congrArg attempt ((h.value name (hname rfl) hne).directoryOf?_eq homes root)

include hc hc'

/-- The patterns of two files are both texts; they may differ only when the request has its own. -/
theorem pattern_loaded : Loaded (fun p p' => request.pattern? = none → p' = p) (textOr defaultPattern (valueOf? (some c) "pattern"))
    (textOr defaultPattern (valueOf? (some c') "pattern")) := by
  cases hgiven : request.pattern? with
  | none =>
    rw [(h.value "pattern" (by simp [Overrides, hgiven]) (by decide)).textOr_eq]
    cases textOr defaultPattern (valueOf? (some c) "pattern") with
    | error e => exact .failed e
    | ok p => exact .given fun _ => rfl
  | some word =>
    have hread : ∀ {c}, Acceptable request c → ∃ p, textOr defaultPattern (valueOf? (some c) "pattern") = .ok p := by
      intro c hc
      cases hx : textOr defaultPattern (valueOf? (some c) "pattern") with
      | ok p => exact ⟨p, rfl⟩
      | error e =>
        cases e with
        | refused e => exact absurd hx (unrefused_textOr _ _ e)
        | unexpected f => exact absurd (escaped_textOr_iff.mp ⟨f, hx⟩) (hc.pattern (by rw [hgiven]; rfl))
    obtain ⟨p, hp⟩ := hread hc
    obtain ⟨p', hp'⟩ := hread hc'
    rw [hp, hp']
    exact .given nofun

/-- The namings of two files may differ only when the request has its own, and both must then be known. -/
theorem naming_loaded : Loaded (fun n n' => (request.naming? = none → n' = n) ∧ (request.naming?.isSome = true →
      (Naming.ofString? n).isSome = true ∧ (Naming.ofString? n').isSome = true))
    (textOr "preserve" (valueOf? (some c) "naming")) (textOr "preserve" (valueOf? (some c') "naming")) := by
  cases hgiven : request.naming? with
  | none =>
    rw [(h.value "naming" (by simp [Overrides, hgiven]) (by decide)).textOr_eq]
    cases textOr "preserve" (valueOf? (some c) "naming") with
    | error e => exact .failed e
    | ok n => exact .given ⟨fun _ => rfl, nofun⟩
  | some word =>
    obtain ⟨n, style, hn, hstyle⟩ := hc.naming (by rw [hgiven]; rfl)
    obtain ⟨n', style', hn', hstyle'⟩ := hc'.naming (by rw [hgiven]; rfl)
    rw [hn, hn']
    exact .given ⟨nofun, fun _ => by simp [hstyle, hstyle']⟩

/-- The drafts of the two documents agree but for what the command line says. -/
theorem draft_loaded (homes : Homes) (root : Path) :
    Loaded (SameDraft request)
      (draft homes root (some c) (request.inputDir?.map Path.ofString) (request.outputDir?.map Path.ofString))
      (draft homes root (some c') (request.inputDir?.map Path.ofString) (request.outputDir?.map Path.ofString)) := by
  unfold draft
  refine (Loaded.of_eq (directory?_eq h homes root (fun hnone => ?_) (by decide))).bind fun input? _ hinput => ?_
  · simp [Overrides, Option.map_eq_none_iff.mp hnone]
  refine (Loaded.of_eq (directory?_eq h homes root (fun hnone => ?_) (by decide))).bind fun output? _ houtput => ?_
  · simp [Overrides, Option.map_eq_none_iff.mp hnone]
  subst hinput houtput
  cases input? with
  | none => exact .failed _
  | some inputDir =>
    cases output? with
    | none => exact .failed _
    | some outputDir =>
      have hoptimizer : ∀ name, SameValue c c' (valueIn? (some c) "optimizer" name) (valueIn? (some c') "optimizer" name) :=
        (h.value "optimizer" (by simp [Overrides]) (by decide)).member?
      refine (Loaded.of_eq ((hoptimizer _).textOr_eq _)).bind fun executable _ hexecutable => ?_
      refine (Loaded.of_eq (congrArg attempt (hoptimizer _).textsOf_eq)).bind fun plugins _ hplugins => ?_
      refine (Loaded.of_eq ((h.formatter "executable" (by simp)).textOr_eq _)).bind fun formatter _ hformatter => ?_
      refine (Loaded.of_eq (h.value "concurrency" (by simp [Overrides]) (by decide)).slots_eq).bind fun concurrency _ hconcurrency => ?_
      refine (pattern_loaded h hc hc').bind fun pattern pattern' hpattern => ?_
      refine (naming_loaded h hc hc').bind fun naming naming' hnaming => ?_
      have hstatic := (h.value "static_dir" (by simp [Overrides]) (by decide)).directoryOf?_eq homes root
      refine (Loaded.of_eq (congrArg attempt hstatic)).bind fun static? _ hstatic => ?_
      subst hexecutable hplugins hformatter hconcurrency hstatic
      refine .given ⟨rfl, fun hsame => ?_, hpattern, hnaming.1, hnaming.2, fun hsame => ?_⟩
      · exact congrArg (·.getD false) (h.value "typescript" (by simp [Overrides, hsame]) (by decide)).boolOf?_eq
      · exact congrArg (·.getD true) (h.formatter "enabled" (by simp [hsame])).boolOf?_eq

end

/-! ## Checked settings -/

/-- A word that stands for a policy is the policy's name. -/
theorem toString_of_ofString? {word : String} {naming : Naming} (h : Naming.ofString? word = some naming) : naming.toString = word := by
  rw [Naming.ofString?, Option.map_eq_some_iff] at h
  obtain ⟨x, hx, rfl⟩ := h
  have hword : x.1 = word := by simpa using List.find?_some hx
  have hmem := List.mem_of_find?_eq_some hx
  simp only [Naming.words, List.mem_cons, List.not_mem_nil, or_false] at hmem
  rcases hmem with rfl | rfl <;> exact hword

/-- Settings that a draft has passed into are that draft. -/
theorem draft_of_check {d : SettingsDraft} {s : Settings} (h : d.check = .ok s) : s.draft = d := by
  unfold SettingsDraft.check at h
  split at h
  · cases h
  · rename_i naming hnaming
    split at h
    · rename_i hslots
      cases h
      have hconcurrency : (d.concurrency.toNat : Int) = d.concurrency := by omega
      simp only [Settings.draft, toString_of_ofString? hnaming, hconcurrency]
    · cases h

/-- An override of settings that a draft has passed into is one of the draft. -/
theorem apply_of_check {d : SettingsDraft} {s : Settings} (h : d.check = .ok s) (o : Override) : o.apply s = (o.onDraft d).check := by
  unfold Override.apply
  split
  · rename_i hempty
    obtain rfl : o = {} := of_decide_eq_true hempty
    exact h.symm
  · rw [draft_of_check h]

/-- How the formatter is run plays no part in the check. -/
theorem check_formatter (d : SettingsDraft) (formatter : FormatterSettings) :
    SettingsDraft.check { d with formatter } = d.check.map fun s => { s with formatter } := by
  unfold SettingsDraft.check
  cases Naming.ofString? d.naming with
  | none => rfl
  | some naming =>
    simp only
    split <;> rfl

/-- What a request puts in the place of settings. -/
def overrideOf (request : BuildRequest) : Override :=
  { typescript? := if request.typescript then some true else none, pattern? := request.pattern?, naming? := request.naming? }

/-- Settings with the formatter switched off, if the request asks for that. -/
def withFormatting (request : BuildRequest) (s : Settings) : Settings :=
  if request.noFormat then { s with formatter := { s.formatter with enabled := false } } else s

/-- The settings that a draft makes for a request: it is checked, overridden and checked again. -/
def finished (request : BuildRequest) (d : SettingsDraft) : Loading Settings := do
  let s ← d.check.mapError .refused
  let s ← ((overrideOf request).apply s).mapError .refused
  pure (withFormatting request s)

/-- Drafts that agree pass the check both, or fail it alike. -/
theorem SameDraft.check {d d' : SettingsDraft} (h : SameDraft request d d') :
    Loaded (fun s s' => d.check = .ok s ∧ d'.check = .ok s') (d.check.mapError .refused) (d'.check.mapError .refused) := by
  have hslots : d'.concurrency = d.concurrency := by rw [h.rest]
  have hnaming : (Naming.ofString? d.naming = none ∧ d'.naming = d.naming) ∨
      ∃ naming naming', Naming.ofString? d.naming = some naming ∧ Naming.ofString? d'.naming = some naming' := by
    cases hd : Naming.ofString? d.naming with
    | some naming =>
      cases hgiven : request.naming? with
      | none => exact .inr ⟨naming, naming, rfl, by rw [h.naming hgiven, hd]⟩
      | some word =>
        obtain ⟨naming', hd'⟩ := Option.isSome_iff_exists.mp (h.known (by rw [hgiven]; rfl)).2
        exact .inr ⟨naming, naming', rfl, hd'⟩
    | none =>
      cases hgiven : request.naming? with
      | none => exact .inl ⟨rfl, h.naming hgiven⟩
      | some word =>
        have hknown := (h.known (by rw [hgiven]; rfl)).1
        rw [hd] at hknown
        cases hknown
  rcases hnaming with ⟨hunknown, hsame⟩ | ⟨naming, naming', hd, hd'⟩
  · have hrefused : ∀ {d : SettingsDraft}, Naming.ofString? d.naming = none → d.check = .error (.unknownNaming d.naming) := by
      intro d hd
      unfold SettingsDraft.check
      rw [hd]
    rw [hrefused hunknown, hrefused (hsame ▸ hunknown), hsame]
    exact .failed _
  · unfold SettingsDraft.check
    rw [hd, hd', hslots]
    simp only
    split
    · exact .given ⟨rfl, rfl⟩
    · exact .failed _

/-- Drafts that agree but for what the request says make the same settings for it. -/
theorem SameDraft.finished {d d' : SettingsDraft} (h : SameDraft request d d') : finished request d' = finished request d := by
  refine (h.check.bind fun s s' ⟨hs, hs'⟩ => Loaded.of_eq ?_).eq
  rw [apply_of_check hs, apply_of_check hs']
  have hexecutable : d'.formatter.executable = d.formatter.executable := by rw [h.rest]
  -- What the drafts still differ in is whether the formatter is on, and they do so only if it is switched off in the end.
  have hoverridden : (overrideOf request).onDraft d' = { (overrideOf request).onDraft d with formatter := d'.formatter } := by
    have htypescript : (overrideOf request).typescript?.getD d'.typescript = (overrideOf request).typescript?.getD d.typescript := by
      cases hgiven : request.typescript with
      | true => simp [overrideOf, hgiven]
      | false => rw [h.typescript hgiven]
    have hpattern : (overrideOf request).pattern?.getD d'.pattern = (overrideOf request).pattern?.getD d.pattern := by
      cases hgiven : request.pattern? with
      | some word => simp [overrideOf, hgiven]
      | none => rw [h.pattern hgiven]
    have hnaming : (overrideOf request).naming?.getD d'.naming = (overrideOf request).naming?.getD d.naming := by
      cases hgiven : request.naming? with
      | some word => simp [overrideOf, hgiven]
      | none => rw [h.naming hgiven]
    unfold Override.onDraft
    rw [htypescript, hpattern, hnaming, h.rest]
    rfl
  rw [hoverridden, check_formatter]
  cases hchecked : ((overrideOf request).onDraft d).check with
  | error e => rfl
  | ok s =>
    have hformatter : s.formatter = d.formatter := congrArg SettingsDraft.formatter (draft_of_check hchecked)
    have hsame : withFormatting request { s with formatter := d'.formatter } = withFormatting request s := by
      unfold withFormatting
      cases hgiven : request.noFormat with
      | true => simp [hexecutable, hformatter]
      | false =>
        have hequal : d'.formatter = s.formatter := by rw [h.rest, h.enabled hgiven, hformatter]
        simp [hequal]
    exact congrArg Except.ok hsame

/-! ## Settings from a file -/

/-- The settings that a file's content makes for a request, seen from the directory of the file. -/
def settingsFrom (request : BuildRequest) (homes : Homes) (root : Path) (content : Content) : Loading Settings :=
  draft homes root content (request.inputDir?.map Path.ofString) (request.outputDir?.map Path.ofString) >>= finished request

/-- What a request asks for is made from the content of the settings file. -/
theorem requestSettings_eq_settingsFrom (request : BuildRequest) (w : Workspace) :
    requestSettings request w = (attempt (locate w.homes w.disk (Path.ofString request.settings)) >>= fun file =>
      content w.readers.document w.disk file >>= settingsFrom request w.homes file.parent) := by
  simp only [requestSettings, Workspace.loadSettings, load, bind_assoc]
  rfl

/-- A draft has its pattern and its naming from the entries of the file, unless they are left out or empty. -/
theorem entries_of_draft {homes : Homes} {root : Path} {content : Content} {input? output? : Option Path} {d : SettingsDraft}
    (h : draft homes root content input? output? = .ok d) :
    textOr defaultPattern (valueOf? content "pattern") = .ok d.pattern ∧ textOr "preserve" (valueOf? content "naming") = .ok d.naming := by
  unfold draft at h
  obtain ⟨inputDir?, -, h⟩ := bind_eq_ok_iff.mp h
  obtain ⟨outputDir?, -, h⟩ := bind_eq_ok_iff.mp h
  split at h
  · obtain ⟨_, -, h⟩ := bind_eq_ok_iff.mp h
    obtain ⟨_, -, h⟩ := bind_eq_ok_iff.mp h
    obtain ⟨_, -, h⟩ := bind_eq_ok_iff.mp h
    obtain ⟨_, -, h⟩ := bind_eq_ok_iff.mp h
    obtain ⟨pattern, hpattern, h⟩ := bind_eq_ok_iff.mp h
    obtain ⟨naming, hnaming, h⟩ := bind_eq_ok_iff.mp h
    obtain ⟨_, -, h⟩ := bind_eq_ok_iff.mp h
    obtain rfl := Except.ok.inj h
    exact ⟨hpattern, hnaming⟩
  · cases h

/-- Only a document whose overridden values could be taken makes settings. -/
theorem acceptable_of_settingsFrom {homes : Homes} {root : Path} {s : Settings}
    (h : settingsFrom request homes root (some c) = .ok s) : Acceptable request c := by
  obtain ⟨d, hdraft, hfinished⟩ := bind_eq_ok_iff.mp h
  obtain ⟨hpattern, hnaming⟩ := entries_of_draft hdraft
  obtain ⟨s₀, hchecked, -⟩ := bind_eq_ok_iff.mp hfinished
  refine ⟨fun _ hendless => ?_, fun _ => ?_⟩
  · obtain ⟨f, hf⟩ := escaped_textOr_iff.mpr hendless
    cases hpattern.symm.trans hf
  · cases hd : Naming.ofString? d.naming with
    | some naming => exact ⟨d.naming, naming, hnaming, hd⟩
    | none =>
      rw [SettingsDraft.check, hd] at hchecked
      cases hchecked

/-- A request whose settings file describes a document gets settings only if the overridden values of that could be taken. -/
theorem acceptable_of_requestSettings {w : Workspace} {file : Path} {s : Settings}
    (hfile : locate w.homes w.disk (Path.ofString request.settings) = .ok file)
    (hc : content w.readers.document w.disk file = .ok (some c)) (h : requestSettings request w = .ok s) : Acceptable request c := by
  rw [requestSettings_eq_settingsFrom, hfile] at h
  obtain ⟨_, hsame, h⟩ := bind_eq_ok_iff.mp h
  obtain rfl := Except.ok.inj hsame
  obtain ⟨c?, hcontent, hsettings⟩ := bind_eq_ok_iff.mp h
  obtain rfl := Except.ok.inj (hc.symm.trans hcontent)
  exact acceptable_of_settingsFrom hsettings

/-- Documents that agree but for values that the request says itself, and that could be taken, make the same settings for it. -/
theorem settingsFrom_eq (h : AgreeBut request c c') (hc : Acceptable request c) (hc' : Acceptable request c') (homes : Homes)
    (root : Path) :
    settingsFrom request homes root (some c') = settingsFrom request homes root (some c) :=
  ((draft_loaded h hc hc' homes root).bind fun _ _ hdraft => Loaded.of_eq hdraft.finished).eq

/-- The bytes of a file in which a document is read. -/
def Describes (read : Reader) (bytes : List UInt8) (c : Document) : Prop :=
  ∃ text, Utf8.decode bytes = .ok text ∧ ∀ file, readContent read file (unifiedBreaks text) = .ok (some c)

/-- Two contents of a file at a location. -/
def TwoContents (l : Location) (bytes bytes' : List UInt8) (m : Location) (content content' : List UInt8) : Prop :=
  m = l ∧ content = bytes ∧ content' = bytes'

section
variable {read : Reader} {d d' : Disk} {l : Location} {bytes bytes' : List UInt8} (hd : Disk.Alike (TwoContents l bytes bytes') d d')
include hd

/-- Where disks differ by two documents at a location, a settings file has the same content on both, or these documents. -/
theorem content_cases (hb : Describes read bytes c) (hb' : Describes read bytes' c') (file : Path) :
    content read d' file = content read d file ∨ content read d file = .ok (some c) ∧ content read d' file = .ok (some c') := by
  have hread : ∀ {d : Disk} {bytes c}, Describes read bytes c → d.readBytes file = .ok bytes →
      (attempt (d.readText file) >>= readContent read file.name) = .ok (some c) := by
    rintro d bytes c ⟨text, htext, hcontent⟩ hbytes
    rw [Disk.readText, hbytes]
    simp only [bind, Except.bind, htext, pure, Except.pure, attempt, Except.mapError, hcontent]
  unfold content
  rw [hd.pathExists_eq]
  rcases hd.readBytes_cases file with hsame | ⟨m, _, _, -, ⟨-, rfl, rfl⟩, hbytes, hbytes'⟩
  · left
    simp only [Disk.readText, hsame]
  · cases d.pathExists file with
    | error r => exact .inl rfl
    | ok there =>
      cases there with
      | false => exact .inl rfl
      | true => exact .inr ⟨hread hb hbytes, hread hb' hbytes'⟩

/-- On such disks, requests are answered with the same settings. -/
theorem requestSettings_eq (h : AgreeBut request c c') (hc : Acceptable request c) (hc' : Acceptable request c') {w : Workspace}
    (hb : Describes w.readers.document bytes c) (hb' : Describes w.readers.document bytes' c') (hw : w.disk = d) :
    requestSettings request { w with disk := d' } = requestSettings request w := by
  rw [requestSettings_eq_settingsFrom, requestSettings_eq_settingsFrom, hw]
  have hlocate : locate w.homes d' (Path.ofString request.settings) = locate w.homes d (Path.ofString request.settings) := by
    simp only [locate, hd.isDirectory_eq, hd.resolve_eq]
  simp only [hlocate]
  refine ((Loaded.of_eq rfl).bind fun file _ hfile => ?_).eq
  subst hfile
  rcases content_cases hd hb hb' file with hsame | ⟨hcontent, hcontent'⟩
  · rw [hsame]
    exact .of_eq rfl
  · rw [hcontent, hcontent']
    exact .of_eq (settingsFrom_eq h hc hc' _ _)

end

end IconForge.SettingsFile
