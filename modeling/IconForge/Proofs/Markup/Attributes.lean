import IconForge.Markup.Attributes
import IconForge.Proofs.Distinct
import Mathlib.Data.List.Induction
import Mathlib.Data.List.Nodup

/-!
# What writing attributes leaves

Pairs that are written one after the other leave attributes of distinct names (`nodup_names_ofPairs`), all of them among the pairs
(`mem_of_mem_ofPairs`). Each name keeps the place of its first pair and has the value of its last one (`names_ofPairs`,
`get?_ofPairs`). Pairs of distinct names are left as they are (`ofPairs_of_nodup`), and no others are as many as before
(`length_ofPairs_eq_iff`).
-/

namespace IconForge.Markup.Attributes

theorem mem_of_get? {name value : String} {attrs : Attributes} (h : get? name attrs = some value) : (name, value) ∈ attrs := by
  induction attrs with
  | nil => cases h
  | cons a attrs ih =>
    obtain ⟨n, v⟩ := a
    unfold get? at h
    split at h
    case isTrue hn =>
      rw [hn, Option.some.inj h]
      exact List.mem_cons_self
    case isFalse => exact List.mem_cons_of_mem _ (ih h)

/-- A new name goes to the end. -/
theorem put_of_not_mem {name : String} (value : String) {attrs : Attributes} (h : name ∉ attrs.names) :
    put name value attrs = attrs ++ [(name, value)] := by
  induction attrs with
  | nil => rfl
  | cons a attrs ih =>
    obtain ⟨n, v⟩ := a
    simp only [names, List.map_cons, List.mem_cons, not_or] at h
    rw [put, if_neg (Ne.symm h.1), ih h.2]
    rfl

/-- A name that is there already keeps its place. -/
theorem names_put_of_mem {name : String} (value : String) {attrs : Attributes} (h : name ∈ attrs.names) :
    (put name value attrs).names = attrs.names := by
  induction attrs with
  | nil => cases h
  | cons a attrs ih =>
    obtain ⟨n, v⟩ := a
    by_cases hn : n = name
    · rw [put, if_pos hn]
      rfl
    · have hmem : name ∈ names attrs := (List.mem_cons.mp h).resolve_left (Ne.symm hn)
      rw [put, if_neg hn]
      exact congrArg (n :: ·) (ih hmem)

/-- Putting an attribute keeps names distinct. -/
theorem nodup_names_put (name value : String) {attrs : Attributes} (h : attrs.names.Nodup) : (put name value attrs).names.Nodup := by
  by_cases hmem : name ∈ attrs.names
  · rwa [names_put_of_mem value hmem]
  · have hnames : (put name value attrs).names = attrs.names ++ [name] := by
      rw [put_of_not_mem value hmem]
      exact List.map_append
    rw [hnames, ← List.concat_eq_append]
    exact (List.nodup_concat _ _).mpr ⟨hmem, h⟩

/-- Putting an attribute brings in no other one. -/
theorem mem_of_mem_put {name value : String} {attrs : Attributes} {a : String × String} (h : a ∈ put name value attrs) :
    a = (name, value) ∨ a ∈ attrs := by
  induction attrs with
  | nil => exact .inl (List.mem_singleton.mp h)
  | cons b attrs ih =>
    obtain ⟨n, v⟩ := b
    unfold put at h
    split at h
    case isTrue hn =>
      rcases List.mem_cons.mp h with rfl | h
      · exact .inl (by rw [hn])
      · exact .inr (List.mem_cons_of_mem _ h)
    case isFalse =>
      rcases List.mem_cons.mp h with rfl | h
      · exact .inr List.mem_cons_self
      · exact (ih h).imp_right (List.mem_cons_of_mem _)

/-- What every writing keeps holds in the end. -/
theorem foldl_put_induction {motive : Attributes → Prop} {pairs : List (String × String)}
    (hput : ∀ p ∈ pairs, ∀ attrs, motive attrs → motive (put p.1 p.2 attrs)) {attrs : Attributes} (h : motive attrs) :
    motive (pairs.foldl (fun attrs p => put p.1 p.2 attrs) attrs) := by
  induction pairs generalizing attrs with
  | nil => exact h
  | cons p pairs ih => exact ih (fun p hp => hput p (List.mem_cons_of_mem _ hp)) (hput p List.mem_cons_self attrs h)

/-- Names that are written again leave no second attribute. -/
theorem nodup_names_ofPairs (pairs : List (String × String)) : (ofPairs pairs).names.Nodup :=
  foldl_put_induction (motive := fun attrs => attrs.names.Nodup) (fun p _ _ h => nodup_names_put p.1 p.2 h) List.nodup_nil

/-- Every attribute comes from a pair. -/
theorem mem_of_mem_ofPairs {pairs : List (String × String)} {a : String × String} (h : a ∈ ofPairs pairs) : a ∈ pairs := by
  have hstep : ∀ p ∈ pairs, ∀ attrs : Attributes, (∀ a ∈ attrs, a ∈ pairs) → ∀ a ∈ put p.1 p.2 attrs, a ∈ pairs := by
    intro p hp attrs hattrs a ha
    rcases mem_of_mem_put ha with rfl | ha
    · exact hp
    · exact hattrs a ha
  have hnone : ∀ a ∈ ([] : Attributes), a ∈ pairs := nofun
  exact foldl_put_induction hstep hnone a h

/-- Pairs with new and distinct names are put one behind the other. -/
theorem foldl_put_of_nodup (pairs : List (String × String)) :
    ∀ attrs : Attributes, (names (attrs ++ pairs)).Nodup →
      pairs.foldl (fun attrs p => put p.1 p.2 attrs) attrs = attrs ++ pairs := by
  induction pairs with
  | nil => simp
  | cons p pairs ih =>
    intro attrs h
    have hnew : p.1 ∉ attrs.names := by
      intro hmem
      simp only [names, List.map_append, List.map_cons] at h
      exact (List.nodup_append.mp h).2.2 _ hmem _ List.mem_cons_self rfl
    have hsplit : attrs ++ p :: pairs = (attrs ++ [p]) ++ pairs := by simp
    rw [List.foldl_cons, put_of_not_mem _ hnew, hsplit]
    exact ih _ (hsplit ▸ h)

/-- Attributes of distinct names are kept as they are reported. -/
theorem ofPairs_of_nodup {pairs : List (String × String)} (h : (pairs.map (·.1)).Nodup) : ofPairs pairs = pairs :=
  foldl_put_of_nodup pairs [] h

/-! ## Pair by pair -/

/-- The last pair is put last. -/
theorem ofPairs_concat (pairs : List (String × String)) (p : String × String) :
    ofPairs (pairs ++ [p]) = put p.1 p.2 (ofPairs pairs) := by
  simp [ofPairs]

theorem names_concat (pairs : List (String × String)) (p : String × String) : names (pairs ++ [p]) = names pairs ++ [p.1] := by
  simp [names]

/-- A new name is put behind the others, and a known one keeps its place. -/
theorem names_put (name value : String) (attrs : Attributes) :
    (put name value attrs).names = if name ∈ attrs.names then attrs.names else attrs.names ++ [name] := by
  split
  case isTrue h => exact names_put_of_mem value h
  case isFalse h => rw [put_of_not_mem value h, names_concat]

/-- A name keeps the place of its first pair. -/
theorem names_ofPairs (pairs : List (String × String)) : (ofPairs pairs).names = (names pairs).eraseDups := by
  induction pairs using List.reverseRecOn with
  | nil => rfl
  | append_singleton pairs p ih =>
    rw [ofPairs_concat, names_put, ih, names_concat, eraseDups_concat]
    simp only [List.mem_eraseDups]

/-- A name has the value of its last pair. -/
theorem get?_ofPairs (name : String) (pairs : List (String × String)) :
    get? name (ofPairs pairs) = (pairs.filter fun p => p.1 = name).getLast?.map (·.2) := by
  induction pairs using List.reverseRecOn with
  | nil => rfl
  | append_singleton pairs p ih =>
    rw [ofPairs_concat]
    by_cases h : p.1 = name
    · rw [← h, get?_put_self]
      simp
    · rw [get?_put_of_ne (Ne.symm h), ih]
      simp [h]

/-- A pair adds an attribute exactly when its name is new. -/
theorem length_ofPairs_concat (pairs : List (String × String)) (p : String × String) :
    (ofPairs (pairs ++ [p])).length = if p.1 ∈ (ofPairs pairs).names then (ofPairs pairs).length else (ofPairs pairs).length + 1 := by
  have h := congrArg List.length (names_put p.1 p.2 (ofPairs pairs))
  rw [ofPairs_concat]
  split at h <;> simp_all [names]

/-- There are no more attributes than pairs. -/
theorem length_ofPairs_le (pairs : List (String × String)) : (ofPairs pairs).length ≤ pairs.length := by
  induction pairs using List.reverseRecOn with
  | nil => exact Nat.le_refl 0
  | append_singleton pairs p ih =>
    rw [length_ofPairs_concat, List.length_append, List.length_singleton]
    split <;> omega

/-- No pair drops out exactly if the names are distinct. -/
theorem length_ofPairs_eq_iff {pairs : List (String × String)} : (ofPairs pairs).length = pairs.length ↔ (names pairs).Nodup := by
  constructor
  · induction pairs using List.reverseRecOn with
    | nil => simp [names]
    | append_singleton pairs p ih =>
      intro h
      have hle := length_ofPairs_le pairs
      rw [length_ofPairs_concat, List.length_append, List.length_singleton] at h
      split at h
      case isTrue => omega
      case isFalse hnew =>
        rw [names_ofPairs, List.mem_eraseDups] at hnew
        rw [names_concat, ← List.concat_eq_append]
        exact (List.nodup_concat _ _).mpr ⟨hnew, ih (by omega)⟩
  · intro h
    rw [ofPairs_of_nodup h]

end IconForge.Markup.Attributes
