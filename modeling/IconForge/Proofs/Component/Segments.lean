import IconForge.Proofs.Component.Camel
import IconForge.Text.Cut
import Mathlib

/-!
# Camel case by segments

A name is cut at its longest runs of separators in exactly one way (`Cut.existsUnique`). Camel case keeps the first of its segments, drops
the runs, and raises the letters that the later segments start with (`Cut.camelFrom_chars`). That leaves the characters between the
separators, up to the case of letters and in order (`toLower_camelFrom`), and nothing more to do (`camelize_segments`).
-/

namespace IconForge.Component

open Text

/-- A segment of a name, with the run of separators in front of it. -/
@[ext]
structure LaterSegment where
  run : List Char
  text : List Char
  run_ne : run ≠ []
  run_separators : ∀ c ∈ run, isSeparator c = true
  text_unseparated : ∀ c ∈ text, isSeparator c = false

/-- A name cut at its longest runs of separators: nothing between two runs would make them one. -/
@[ext]
structure Cut where
  first : List Char
  later : List LaterSegment
  first_unseparated : ∀ c ∈ first, isSeparator c = false
  longest : ∀ s ∈ later.dropLast, s.text ≠ []

/-- Runs of separators, each with the segment behind it. -/
def laterChars (later : List LaterSegment) : List Char := later.flatMap fun s => s.run ++ s.text

/-- The name that has been cut. -/
def Cut.chars (cut : Cut) : List Char := cut.first ++ laterChars cut.later

/-- A segment with the letter at its front raised. -/
def raiseFirst (text : List Char) : List Char := text.modifyHead fun c => if c.isAlpha then c.toUpper else c

theorem laterChars_cons (s : LaterSegment) (later : List LaterSegment) :
    laterChars (s :: later) = s.run ++ (s.text ++ laterChars later) := by
  rw [laterChars, List.flatMap_cons, List.append_assoc]
  rfl

/-- A separator comes first wherever a segment has one in front of it. -/
theorem isSeparator_of_head?_laterChars {later : List LaterSegment} {c : Char} (h : (laterChars later).head? = some c) :
    isSeparator c = true := by
  cases later with
  | nil => cases h
  | cons s later =>
    rw [laterChars_cons, List.head?_append_of_ne_nil _ s.run_ne] at h
    exact s.run_separators c (List.mem_of_head? h)

/-! ## There is one cut -/

/-- A text that stops where a property does is split there in one way. -/
theorem append_split_inj {p : Char → Bool} {s s' rest rest' : List Char} (hs : ∀ c ∈ s, p c = true) (hs' : ∀ c ∈ s', p c = true)
    (hrest : ∀ c, rest.head? = some c → p c = false) (hrest' : ∀ c, rest'.head? = some c → p c = false)
    (h : s ++ rest = s' ++ rest') : s = s' ∧ rest = rest' := by
  have htake : ∀ {s rest : List Char}, (∀ c ∈ s, p c = true) → (∀ c, rest.head? = some c → p c = false) →
      (s ++ rest).takeWhile p = s := by
    intro s rest hs hrest
    cases rest with
    | nil => rw [List.append_nil, (takeWhile_of_all hs).1]
    | cons c rest => exact (takeWhile_append_cons hs (hrest c rfl) rest).1
  have hsame : s = s' := by rw [← htake hs hrest, h, htake hs' hrest']
  subst hsame
  exact ⟨rfl, List.append_cancel_left h⟩

/-- A text without separators ends where the first run starts. -/
theorem append_laterChars_inj {s s' : List Char} (hs : ∀ c ∈ s, isSeparator c = false) (hs' : ∀ c ∈ s', isSeparator c = false)
    {later later' : List LaterSegment} (h : s ++ laterChars later = s' ++ laterChars later') :
    s = s' ∧ laterChars later = laterChars later' := by
  have hrun : ∀ later, ∀ c, (laterChars later).head? = some c → (!isSeparator c) = false :=
    fun later c hc => by simp [isSeparator_of_head?_laterChars hc]
  exact append_split_inj (p := fun c => !isSeparator c) (fun c hc => by simp [hs c hc]) (fun c hc => by simp [hs' c hc]) (hrun later)
    (hrun later') h

/-- What stands behind a run is no separator, unless the next run would touch it. -/
theorem isSeparator_behind_run {s : LaterSegment} {later : List LaterSegment} (hlongest : ∀ t ∈ (s :: later).dropLast, t.text ≠ [])
    {c : Char} (h : (s.text ++ laterChars later).head? = some c) : isSeparator c = false := by
  cases htext : s.text with
  | cons d text =>
    rw [htext, List.cons_append, List.head?_cons, Option.some.injEq] at h
    exact s.text_unseparated c (by rw [htext, h]; exact List.mem_cons_self)
  | nil =>
    cases later with
    | nil =>
      rw [htext] at h
      cases h
    | cons t later => exact absurd htext (hlongest s (by simp))

/-- The later segments are told by what they write. -/
theorem laterChars_inj {later later' : List LaterSegment} (hlongest : ∀ s ∈ later.dropLast, s.text ≠ [])
    (hlongest' : ∀ s ∈ later'.dropLast, s.text ≠ []) (h : laterChars later = laterChars later') : later = later' := by
  have hnil : ∀ {s : LaterSegment} {later}, laterChars (s :: later) ≠ [] := by
    intro s later
    rw [laterChars_cons]
    exact List.append_ne_nil_of_left_ne_nil s.run_ne _
  have hrest : ∀ {s : LaterSegment} {later : List LaterSegment}, (∀ t ∈ (s :: later).dropLast, t.text ≠ []) →
      ∀ t ∈ later.dropLast, t.text ≠ [] := by
    intro s later hlongest t ht
    cases later with
    | nil => cases ht
    | cons u later => exact hlongest t (List.mem_cons_of_mem _ ht)
  induction later generalizing later' with
  | nil =>
    cases later' with
    | nil => rfl
    | cons s' later' => exact absurd h.symm hnil
  | cons s later ih =>
    cases later' with
    | nil => exact absurd h hnil
    | cons s' later' =>
      rw [laterChars_cons, laterChars_cons] at h
      obtain ⟨hrun, hbehind⟩ := append_split_inj s.run_separators s'.run_separators (fun _ => isSeparator_behind_run hlongest)
        (fun _ => isSeparator_behind_run hlongest') h
      obtain ⟨htext, hlater⟩ := append_laterChars_inj s.text_unseparated s'.text_unseparated hbehind
      rw [LaterSegment.ext hrun htext, ih (hrest hlongest) (hrest hlongest') hlater]

namespace Cut

/-- A cut is told by its name. -/
theorem chars_inj {cut cut' : Cut} (h : cut.chars = cut'.chars) : cut = cut' := by
  obtain ⟨hfirst, hlater⟩ := append_laterChars_inj cut.first_unseparated cut'.first_unseparated h
  exact Cut.ext hfirst (laterChars_inj cut.longest cut'.longest hlater)

/-- A cut with one more character in front: a separator joins the run in front of it or makes a run of its own, and any other character
belongs to the first segment. -/
theorem exists_cons (c : Char) (cut : Cut) : ∃ next : Cut, next.chars = c :: cut.chars := by
  obtain ⟨first, later, hfirst, hlongest⟩ := cut
  by_cases hc : isSeparator c = true
  · have hmore : ∀ s : LaterSegment, ∀ d ∈ c :: s.run, isSeparator d = true :=
      fun s => List.forall_mem_cons.mpr ⟨hc, s.run_separators⟩
    match first, later with
    | [], s :: later =>
      refine ⟨⟨[], ⟨c :: s.run, s.text, List.cons_ne_nil _ _, hmore s, s.text_unseparated⟩ :: later, nofun, ?_⟩, ?_⟩
      · cases later with
        | nil => exact nofun
        | cons t later => exact List.forall_mem_cons.mpr ⟨hlongest s List.mem_cons_self, fun u hu => hlongest u (List.mem_cons_of_mem _ hu)⟩
      · simp [chars, laterChars_cons]
    | [], [] => exact ⟨⟨[], [⟨[c], [], by simp, by simpa using hc, nofun⟩], nofun, nofun⟩, by simp [chars, laterChars]⟩
    | d :: first, later =>
      refine ⟨⟨[], ⟨[c], d :: first, by simp, by simpa using hc, hfirst⟩ :: later, nofun, ?_⟩, by simp [chars, laterChars_cons]⟩
      cases later with
      | nil => exact nofun
      | cons t later => exact List.forall_mem_cons.mpr ⟨List.cons_ne_nil d first, hlongest⟩
  · exact ⟨⟨c :: first, later, List.forall_mem_cons.mpr ⟨by simpa using hc, hfirst⟩, hlongest⟩, rfl⟩

/-- Every name is cut in exactly one way. -/
theorem existsUnique (s : List Char) : ∃! cut : Cut, cut.chars = s := by
  have hexists : ∃ cut : Cut, cut.chars = s := by
    induction s with
    | nil => exact ⟨⟨[], [], nofun, nofun⟩, rfl⟩
    | cons c s ih =>
      obtain ⟨cut, rfl⟩ := ih
      exact exists_cons c cut
  obtain ⟨cut, hcut⟩ := hexists
  exact ⟨cut, hcut, fun other hother => chars_inj (hother.trans hcut.symm)⟩

end Cut

/-! ## Camel case of a cut name -/

/-- A run of separators drops out. -/
theorem camelFrom_run {run : List Char} (hne : run ≠ []) (h : ∀ c ∈ run, isSeparator c = true) (raised : Bool) (rest : List Char) :
    camelFrom raised (run ++ rest) = camelFrom true rest := by
  induction run generalizing raised with
  | nil => exact absurd rfl hne
  | cons c run ih =>
    rw [List.cons_append, camelFrom, if_pos (h c List.mem_cons_self)]
    cases run with
    | nil => rfl
    | cons d run => exact ih (List.cons_ne_nil d run) (fun e he => h e (List.mem_cons_of_mem _ he)) true

/-- Letters are raised to capital ones, and nothing else is. -/
theorem toUpper_eq_ite (c : Char) : c.toUpper = if c.isAlpha then c.toUpper else c := by
  split
  case isTrue => rfl
  case isFalse h =>
    rcases toUpper_cases c with ⟨hlower, -⟩ | ⟨-, hsame⟩
    · exact absurd (isAlpha_iff.mpr (.inr hlower)) h
    · exact hsame

/-- A segment behind a run is raised, and left as it is behind its first character. -/
theorem camelFrom_segment {text : List Char} (h : ∀ c ∈ text, isSeparator c = false) {rest : List Char}
    (hrest : ∀ c, rest.head? = some c → isSeparator c = true) :
    camelFrom true (text ++ rest) = raiseFirst text ++ camelFrom false rest := by
  cases text with
  | nil =>
    cases rest with
    | nil => rfl
    | cons c rest =>
      have hc := hrest c rfl
      simp [raiseFirst, camelFrom, hc]
  | cons c text =>
    have hc : ¬isSeparator c = true := by simp [h c List.mem_cons_self]
    rw [List.cons_append, camelFrom, if_neg hc, if_pos rfl, camelFrom_append fun d hd => h d (List.mem_cons_of_mem _ hd), toUpper_eq_ite]
    rfl

/-- Of the later segments the runs drop out, and the segments are raised. -/
theorem camelFrom_laterChars (later : List LaterSegment) :
    camelFrom false (laterChars later) = later.flatMap fun s => raiseFirst s.text := by
  induction later with
  | nil => rfl
  | cons s later ih =>
    rw [laterChars_cons, camelFrom_run s.run_ne s.run_separators,
      camelFrom_segment s.text_unseparated fun _ => isSeparator_of_head?_laterChars, ih, List.flatMap_cons]

/-- In camel case the first segment stays and the later ones are raised, with no separator between them. -/
theorem Cut.camelFrom_chars (cut : Cut) : camelFrom false cut.chars = cut.first ++ cut.later.flatMap fun s => raiseFirst s.text := by
  rw [chars, camelFrom_append cut.first_unseparated, camelFrom_laterChars]

/-- Up to the case of letters, what is left is what stands between the separators. -/
theorem toLower_camelFrom (behind : Bool) (s : List Char) :
    (camelFrom behind s).map Char.toLower = (s.filter fun c => !isSeparator c).map Char.toLower := by
  induction s generalizing behind with
  | nil => rfl
  | cons c s ih =>
    rw [camelFrom]
    by_cases hc : isSeparator c = true
    · simp [hc, ih]
    · cases behind <;> simp [hc, ih, Char.toLower_toUpper_eq_toLower]

theorem toList_camelize (name : String) : (camelize name).toList = camelFrom false name.toList := String.toList_ofList

/-- A name without separators stays as it is. -/
theorem camelize_of_unseparated {name : String} (h : ∀ c ∈ name.toList, isSeparator c = false) : camelize name = name := by
  rw [camelize, camelFrom_of_unseparated h, String.ofList_toList]

/-- A name in camel case has no separators. -/
theorem isSeparator_of_mem_camelize {name : String} {c : Char} (h : c ∈ (camelize name).toList) : isSeparator c = false := by
  rw [toList_camelize] at h
  exact isSeparator_of_mem_camelFrom h

/-- A name is cut at its longest runs of hyphens and colons in one way, and its camel case is its first segment as it is, followed by the
later ones with the letters that they start with raised. So nothing of the separators is left, a name without separators stays as it is,
also when it is camel case already, and every other character is kept, up to the case of letters and in order. -/
theorem camelize_segments (name : String) :
    (∃! cut : Cut, cut.chars = name.toList) ∧
      (∀ cut : Cut, cut.chars = name.toList → (camelize name).toList = cut.first ++ cut.later.flatMap fun s => raiseFirst s.text) ∧
      (∀ c ∈ (camelize name).toList, c ≠ '-' ∧ c ≠ ':') ∧
      camelize (camelize name) = camelize name ∧
      ((∀ c ∈ name.toList, c ≠ '-' ∧ c ≠ ':') → camelize name = name) ∧
      (camelize name).toList.map Char.toLower = (name.toList.filter fun c => c ≠ '-' ∧ c ≠ ':').map Char.toLower := by
  have hplain : ∀ c, isSeparator c = false ↔ c ≠ '-' ∧ c ≠ ':' := by
    intro c
    rw [Bool.eq_false_iff, ne_eq, isSeparator_iff, not_or]
  refine ⟨Cut.existsUnique _, ?segments, ?separators, ?twice, ?unseparated, ?kept⟩
  case segments =>
    intro cut hcut
    rw [toList_camelize, ← hcut, cut.camelFrom_chars]
  case separators => exact fun c hc => (hplain c).mp (isSeparator_of_mem_camelize hc)
  case twice => exact camelize_of_unseparated fun c hc => isSeparator_of_mem_camelize hc
  case unseparated => exact fun h => camelize_of_unseparated fun c hc => (hplain c).mpr (h c hc)
  case kept =>
    rw [toList_camelize, toLower_camelFrom]
    exact congrArg (List.map Char.toLower) (List.filter_congr fun c _ => by rw [Bool.eq_iff_iff]; simpa using hplain c)

example : camelize "--xlink:-:href-2x:Über-" = "XlinkHref2xÜber" := by decide

end IconForge.Component
