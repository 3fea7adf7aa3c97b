import DocComponents.Props
import Mathlib.Data.List.Induction

/-! Props as ordered maps. Pairs with different keys are kept as they are, so props overlaid with
themselves stay the same, and every pair of a map is one of those that were put in. -/

set_option autoImplicit false

namespace DocComponents

theorem mem_putPair {key value : Text} {pairs : List (Text × Text)} {pair : Text × Text}
    (member : pair ∈ putPair key value pairs) : pair = (key, value) ∨ pair ∈ pairs := by
  induction pairs with
  | nil => exact .inl (by simpa [putPair] using member)
  | cons first rest ih =>
      obtain ⟨other, old⟩ := first
      by_cases same : other = key
      · subst same
        simp only [putPair, ↓reduceIte, List.mem_cons] at member
        rcases member with rfl | later
        · exact .inl rfl
        · exact .inr (List.mem_cons_of_mem _ later)
      · simp only [putPair, same, ↓reduceIte, List.mem_cons] at member
        rcases member with rfl | later
        · exact .inr List.mem_cons_self
        · exact (ih later).imp_right (List.mem_cons_of_mem _)

theorem putPair_of_not_mem {key value : Text} {pairs : List (Text × Text)}
    (absent : key ∉ pairs.map Prod.fst) : putPair key value pairs = pairs ++ [(key, value)] := by
  induction pairs with
  | nil => rfl
  | cons first rest ih =>
      obtain ⟨other, old⟩ := first
      simp only [List.map_cons, List.mem_cons, not_or] at absent
      simp [putPair, Ne.symm absent.1, ih absent.2]

theorem putPair_of_mem {key value : Text} {pairs : List (Text × Text)}
    (distinct : (pairs.map Prod.fst).Nodup) (member : (key, value) ∈ pairs) :
    putPair key value pairs = pairs := by
  induction pairs with
  | nil => cases member
  | cons first rest ih =>
      obtain ⟨other, old⟩ := first
      rw [List.map_cons, List.nodup_cons] at distinct
      rcases List.mem_cons.mp member with same | later
      · cases same
        simp [putPair]
      · have apart : other ≠ key := by
          rintro rfl
          exact distinct.1 (List.mem_map.mpr ⟨(other, value), later, rfl⟩)
        simp [putPair, apart, ih distinct.2 later]

theorem lookup_putPair (key other value : Text) (pairs : List (Text × Text)) :
    (putPair key value pairs).lookup other =
      if other = key then some value else pairs.lookup other := by
  induction pairs with
  | nil =>
      by_cases here : other = key
      · simp [putPair, here]
      · simp [putPair, List.lookup_cons, here, beq_false_of_ne here]
  | cons first rest ih =>
      obtain ⟨name, old⟩ := first
      rw [putPair]
      split
      · next same =>
          subst same
          by_cases here : other = name
          · simp [here]
          · simp [List.lookup_cons, here, beq_false_of_ne here]
      · next apart =>
          by_cases here : other = name
          · simp [here, apart]
          · simp [List.lookup_cons, beq_false_of_ne here, ih]

theorem keys_putPair (key value : Text) (pairs : List (Text × Text)) :
    (putPair key value pairs).map Prod.fst =
      if key ∈ pairs.map Prod.fst then pairs.map Prod.fst else pairs.map Prod.fst ++ [key] := by
  induction pairs with
  | nil => rfl
  | cons first rest ih =>
      obtain ⟨other, old⟩ := first
      rw [putPair]
      by_cases same : other = key
      · simp [same]
      · rw [if_neg same, List.map_cons, ih]
        by_cases later : key ∈ rest.map Prod.fst
        · simp [later]
        · simp [later, Ne.symm same]

/-- Putting a pair in leaves the pairs of other keys as they are. -/
theorem filter_putPair (keep : Text → Bool) {key : Text} (hidden : keep key = false) (value : Text)
    (pairs : List (Text × Text)) :
    (putPair key value pairs).filter (fun pair => keep pair.1) =
      pairs.filter fun pair => keep pair.1 := by
  induction pairs with
  | nil => simp [putPair, hidden]
  | cons first rest ih =>
      obtain ⟨other, old⟩ := first
      rw [putPair]
      split
      · next same =>
          subst same
          simp [hidden]
      · rw [List.filter_cons, List.filter_cons, ih]

namespace Props

theorem get?_put (props : Props) (key other value : Text) :
    (props.put key value).get? other = if other = key then some value else props.get? other :=
  lookup_putPair key other value props.pairs

theorem eq_of_pairs_eq {left right : Props} (same : left.pairs = right.pairs) : left = right := by
  cases left
  cases right
  cases same
  rfl

theorem mem_putAll {props : Props} {pairs : List (Text × Text)} {pair : Text × Text}
    (member : pair ∈ (props.putAll pairs).pairs) : pair ∈ props.pairs ∨ pair ∈ pairs := by
  induction pairs generalizing props with
  | nil => exact .inl member
  | cons first rest ih =>
      have found : pair ∈ ((props.put first.1 first.2).putAll rest).pairs := member
      rcases ih found with kept | later
      · rcases mem_putPair kept with rfl | before
        · exact .inr List.mem_cons_self
        · exact .inl before
      · exact .inr (List.mem_cons_of_mem _ later)

theorem mem_ofPairs {pairs : List (Text × Text)} {pair : Text × Text}
    (member : pair ∈ (ofPairs pairs).pairs) : pair ∈ pairs := by
  rcases mem_putAll member with none | found
  · cases none
  · exact found

theorem pairs_putAll {props : Props} {pairs : List (Text × Text)}
    (distinct : ((props.pairs ++ pairs).map Prod.fst).Nodup) :
    (props.putAll pairs).pairs = props.pairs ++ pairs := by
  induction pairs generalizing props with
  | nil => simp [putAll]
  | cons first rest ih =>
      have absent : first.1 ∉ props.pairs.map Prod.fst := by
        intro present
        rw [List.map_append, List.nodup_append] at distinct
        exact distinct.2.2 _ present _ (by simp) rfl
      have put : (props.put first.1 first.2).pairs = props.pairs ++ [first] :=
        putPair_of_not_mem absent
      have later : ((props.put first.1 first.2).putAll rest).pairs =
          (props.put first.1 first.2).pairs ++ rest := by
        apply ih
        rw [put]
        simpa using distinct
      rw [put] at later
      simpa [putAll] using later

/-- The pairs of props stand for these props. -/
theorem ofPairs_pairs (props : Props) : ofPairs props.pairs = props := by
  have kept : (empty.putAll props.pairs).pairs = [] ++ props.pairs := pairs_putAll props.distinct
  exact eq_of_pairs_eq kept

theorem putAll_of_subset {props : Props} {pairs : List (Text × Text)}
    (known : ∀ pair ∈ pairs, pair ∈ props.pairs) : props.putAll pairs = props := by
  induction pairs with
  | nil => rfl
  | cons first rest ih =>
      have same : props.put first.1 first.2 = props :=
        eq_of_pairs_eq (putPair_of_mem props.distinct (known first List.mem_cons_self))
      have later := ih fun pair member => known pair (List.mem_cons_of_mem _ member)
      simpa [putAll, same] using later

/-- Passing the defaults as props overrides nothing. -/
theorem overlay_self (props : Props) : props.overlay props = props :=
  putAll_of_subset fun _ member => member

theorem overlay_empty (props : Props) : props.overlay empty = props := rfl

/-! ### Keys with several values -/

theorem keys_put (props : Props) (key value : Text) :
    (props.put key value).pairs.map Prod.fst =
      if key ∈ props.pairs.map Prod.fst then props.pairs.map Prod.fst
      else props.pairs.map Prod.fst ++ [key] :=
  keys_putPair key value props.pairs

theorem ofPairs_concat (pairs : List (Text × Text)) (pair : Text × Text) :
    ofPairs (pairs ++ [pair]) = (ofPairs pairs).put pair.1 pair.2 := by
  simp [ofPairs, putAll, List.foldl_append]

/-- A key stands where it came in first. -/
theorem keys_ofPairs (pairs : List (Text × Text)) :
    (ofPairs pairs).pairs.map Prod.fst = (pairs.map Prod.fst).eraseDups := by
  induction pairs using List.reverseRecOn with
  | nil => rfl
  | append_singleton earlier pair ih =>
      have same : pair.1 ∈ (earlier.map Prod.fst).eraseDups ↔ pair.1 ∈ earlier.map Prod.fst :=
        List.mem_eraseDups
      rw [ofPairs_concat, keys_put, ih, List.map_append, List.eraseDups_append]
      by_cases known : pair.1 ∈ earlier.map Prod.fst
      · rw [if_pos (same.mpr known)]
        simp [List.removeAll, known]
      · rw [if_neg (known ∘ same.mp)]
        simp [List.removeAll, known, List.eraseDups_cons]

/-- A key has the value that came in last. -/
theorem get?_ofPairs (pairs : List (Text × Text)) (key : Text) :
    (ofPairs pairs).get? key = pairs.reverse.lookup key := by
  induction pairs using List.reverseRecOn with
  | nil => rfl
  | append_singleton earlier pair ih =>
      rw [ofPairs_concat, get?_put, ih, List.reverse_append, List.reverse_singleton,
        List.singleton_append, List.lookup_cons]
      by_cases here : key = pair.1
      · simp [here]
      · simp [here, beq_false_of_ne here]

end Props

end DocComponents
