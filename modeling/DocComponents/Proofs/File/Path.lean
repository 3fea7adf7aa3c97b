import DocComponents.File.Path
import DocComponents.Proofs.Text.Cut
import DocComponents.Proofs.Text.Lead
import Mathlib.Data.List.DropRight

/-!
# Paths and their texts

A path that reading gives is a root, or no root, with parts behind it that are names. Of these paths
each has a text of its own, which reads back as the path and is never empty.
-/

set_option autoImplicit false

namespace DocComponents.Path

/-- A path that its text reads back as: what reading any text gives. -/
def IsWritten (path : Path) : Prop :=
  ofText path.toText = path

/-- A part of a path that reading keeps: neither empty nor a single dot, and without slashes. -/
structure IsPart (part : Text) : Prop where
  notEmpty : part ≠ []
  noSlash : '/' ∉ part
  noDot : part ≠ ['.']

instance (path : Path) : Decidable path.IsWritten :=
  inferInstanceAs (Decidable (ofText path.toText = path))

instance (part : Text) : Decidable (IsPart part) :=
  decidable_of_iff (part ≠ [] ∧ '/' ∉ part ∧ part ≠ ['.'])
    ⟨fun ⟨notEmpty, noSlash, noDot⟩ => ⟨notEmpty, noSlash, noDot⟩,
      fun name => ⟨name.notEmpty, name.noSlash, name.noDot⟩⟩

/-- What a path begins with before its first name. -/
def IsRootPath (root : Path) : Prop :=
  root = [] ∨ root = [['/']] ∨ root = [['/', '/']]

theorem isRootPath_rootOf (text : Text) : IsRootPath (rootOf text) := by
  unfold rootOf
  split
  · exact .inr (.inl rfl)
  · exact .inr (.inr rfl)
  · exact .inr (.inl rfl)
  · exact .inl rfl

theorem isPart_of_mem_names {text part : Text}
    (member : part ∈ (Text.cutAt (· == '/') text).filter fun part =>
      !part.isEmpty && part != ['.']) : IsPart part := by
  obtain ⟨isPart, kept⟩ := List.mem_filter.mp member
  have outside := Text.outside_of_mem_cutAt isPart
  simp only [Bool.and_eq_true, Bool.not_eq_true', List.isEmpty_eq_false_iff, bne_iff_ne] at kept
  refine ⟨kept.1, ?_, kept.2⟩
  intro slash
  have apart := outside '/' slash
  simp at apart

theorem ofText_spec (text : Text) :
    ∃ root parts, ofText text = root ++ parts ∧ IsRootPath root ∧ ∀ part ∈ parts, IsPart part :=
  ⟨_, _, rfl, isRootPath_rootOf text, fun _ => isPart_of_mem_names⟩

private theorem filter_parts {parts : List Text} (names : ∀ part ∈ parts, IsPart part) :
    (parts.filter fun part => !part.isEmpty && part != ['.']) = parts := by
  apply List.filter_eq_self.mpr
  intro part member
  have name := names part member
  simp [name.notEmpty, name.noDot]

private theorem rootOf_join {parts : List Text} (names : ∀ part ∈ parts, IsPart part) :
    rootOf (Text.join ['/'] parts) = [] ∧ rootOf ('/' :: Text.join ['/'] parts) = [['/']] ∧
      rootOf ('/' :: '/' :: Text.join ['/'] parts) = [['/', '/']] := by
  have plain : ∀ char rest, char ≠ '/' → rootOf (char :: rest) = [] ∧
      rootOf ('/' :: char :: rest) = [['/']] ∧
      rootOf ('/' :: '/' :: char :: rest) = [['/', '/']] := by
    intro char rest apart
    simp [rootOf, apart]
  cases parts with
  | nil => exact ⟨rfl, rfl, rfl⟩
  | cons part others =>
      have name := names part List.mem_cons_self
      cases part with
      | nil => exact absurd rfl name.notEmpty
      | cons char tail =>
          have apart : char ≠ '/' := by
            intro same
            subst same
            exact name.noSlash List.mem_cons_self
          cases others with
          | nil => exact plain char tail apart
          | cons next rest => exact plain char _ apart

private theorem cut_join {parts : List Text} (names : ∀ part ∈ parts, IsPart part) :
    ((Text.cutAt (· == '/') (Text.join ['/'] parts)).filter fun part =>
      !part.isEmpty && part != ['.']) = parts := by
  cases parts with
  | nil => rfl
  | cons part others =>
      have outside : ∀ other ∈ part :: others, ∀ char ∈ other, (char == '/') = false := by
        intro other member char inside
        have apart : char ≠ '/' := by
          intro same
          subst same
          exact (names other member).noSlash inside
        simpa using apart
      rw [Text.cutAt_join (by simp) outside (List.cons_ne_nil _ _), filter_parts names]

theorem IsPart.isRoot_eq_false {part : Text} (name : IsPart part) : isRoot part = false := by
  have single : part ≠ ['/'] := by
    intro same
    subst same
    exact name.noSlash (by simp)
  have double : part ≠ ['/', '/'] := by
    intro same
    subst same
    exact name.noSlash (by simp)
  simp [isRoot, single, double]

theorem isWritten_append {root : Path} {parts : List Text} (isRootPath : IsRootPath root)
    (names : ∀ part ∈ parts, IsPart part) : IsWritten (root ++ parts) := by
  have back := cut_join names
  obtain ⟨relative, single, double⟩ := rootOf_join names
  unfold IsWritten
  rcases isRootPath with rfl | rfl | rfl
  · cases parts with
    | nil => rfl
    | cons part others =>
        have noRoot := (names part List.mem_cons_self).isRoot_eq_false
        rw [List.nil_append, toText, if_neg (by simp [noRoot]), ofText, back, relative]
        rfl
  · have text : toText ([['/']] ++ parts) = '/' :: Text.join ['/'] parts := rfl
    have cut : Text.cutAt (· == '/') ('/' :: Text.join ['/'] parts) =
        [] :: Text.cutAt (· == '/') (Text.join ['/'] parts) := rfl
    rw [text, ofText, single, cut, List.filter_cons_of_neg (by simp), back]
  · have text : toText ([['/', '/']] ++ parts) = '/' :: '/' :: Text.join ['/'] parts := rfl
    have cut : Text.cutAt (· == '/') ('/' :: '/' :: Text.join ['/'] parts) =
        [] :: [] :: Text.cutAt (· == '/') (Text.join ['/'] parts) := rfl
    rw [text, ofText, double, cut, List.filter_cons_of_neg (by simp),
      List.filter_cons_of_neg (by simp), back]

/-- Names that are joined by slashes are the parts of the path that is read. -/
theorem ofText_join {parts : List Text} (names : ∀ part ∈ parts, IsPart part) :
    ofText (Text.join ['/'] parts) = parts := by
  rw [ofText, (rootOf_join names).1, cut_join names]
  rfl

/-- A slash behind the last name changes nothing. -/
theorem ofText_join_slash {parts : List Text} (names : ∀ part ∈ parts, IsPart part)
    (notEmpty : parts ≠ []) : ofText (Text.join ['/'] parts ++ ['/']) = parts := by
  have outside : ∀ other ∈ parts ++ [[]], ∀ char ∈ other, (char == '/') = false := by
    intro other member char inside
    rcases List.mem_append.mp member with isName | isLast
    · have apart : char ≠ '/' := fun same => (names other isName).noSlash (same ▸ inside)
      simpa using apart
    · cases List.mem_singleton.mp isLast
      cases inside
  have relative : rootOf (Text.join ['/'] parts ++ ['/']) = [] := by
    obtain ⟨part, others, rfl⟩ := List.exists_cons_of_ne_nil notEmpty
    have name := names part List.mem_cons_self
    obtain ⟨char, tail, rfl⟩ := List.exists_cons_of_ne_nil name.notEmpty
    have apart : char ≠ '/' := fun same => name.noSlash (same ▸ List.mem_cons_self)
    cases others with
    | nil => simp [Text.join, rootOf, apart]
    | cons next rest => simp [Text.join, rootOf, apart]
  rw [ofText, relative, ← Text.join_concat_nil ['/'] notEmpty,
    Text.cutAt_join (by simp) outside (by simp), List.filter_append, filter_parts names]
  simp

theorem isWritten_ofText (text : Text) : IsWritten (ofText text) := by
  obtain ⟨root, parts, same, isRootPath, names⟩ := ofText_spec text
  rw [same]
  exact isWritten_append isRootPath names

theorem IsWritten.append {path : Path} (written : path.IsWritten) {parts : List Text}
    (names : ∀ part ∈ parts, IsPart part) : IsWritten (path ++ parts) := by
  obtain ⟨root, own, same, isRootPath, ownNames⟩ := ofText_spec path.toText
  have whole : path = root ++ own := written.symm.trans same
  rw [whole, List.append_assoc]
  apply isWritten_append isRootPath
  intro part member
  exact (List.mem_append.mp member).elim (ownNames part) (names part)

theorem IsWritten.eq_of_toText_eq {left right : Path} (leftWritten : left.IsWritten)
    (rightWritten : right.IsWritten) (same : left.toText = right.toText) : left = right :=
  leftWritten.symm.trans ((congrArg ofText same).trans rightWritten)

theorem IsWritten.toText_ne_nil {path : Path} (written : path.IsWritten) : path.toText ≠ [] := by
  intro empty
  have noParts : path = [] := by
    rw [IsWritten, empty] at written
    exact written.symm
  subst noParts
  cases empty

/-! ### Lengths -/

theorem length_join_names_le (text : Text) :
    (Text.join ['/'] ((Text.cutAt (· == '/') text).filter fun part =>
      !part.isEmpty && part != ['.'])).length ≤ text.length :=
  Text.length_join_filter_cutAt_le (· == '/') _ '/' text

/-- The path that is read from a text is not written longer than the text. -/
theorem length_toText_ofText_le {text : Text} (notEmpty : text ≠ []) :
    (ofText text).toText.length ≤ text.length := by
  unfold ofText
  rw [rootOf.eq_def]
  split
  · next rest => exact Nat.succ_le_succ (length_join_names_le ('/' :: '/' :: rest))
  · next rest _ => exact Nat.succ_le_succ (Nat.succ_le_succ (length_join_names_le rest))
  · next rest _ _ => exact Nat.succ_le_succ (length_join_names_le rest)
  · have joined := length_join_names_le text
    have areParts : ∀ part ∈ (Text.cutAt (· == '/') text).filter (fun part =>
        !part.isEmpty && part != ['.']), IsPart part := fun _ => isPart_of_mem_names
    rw [List.nil_append]
    cases names : (Text.cutAt (· == '/') text).filter fun part =>
        !part.isEmpty && part != ['.'] with
    | nil => exact List.length_pos_iff.mpr notEmpty
    | cons part rest =>
        rw [names] at joined areParts
        have noRoot := (areParts part List.mem_cons_self).isRoot_eq_false
        rw [toText, if_neg (by simp [noRoot])]
        exact joined

/-! ### Home folders -/

theorem exists_ofText_slash (text : Text) :
    ∃ root parts, ofText ('/' :: text) = ('/' :: root) :: parts := by
  rw [ofText, rootOf.eq_def]
  split
  · exact ⟨[], _, rfl⟩
  · exact ⟨['/'], _, rfl⟩
  · exact ⟨[], _, rfl⟩
  · next other => exact absurd rfl (other text)

/-- An absolute path does not refer to a home folder. -/
theorem expandHome_ofText_slash (home text : Text) :
    expandHome home (ofText ('/' :: text)) = .ok (ofText ('/' :: text)) := by
  obtain ⟨root, parts, same⟩ := exists_ofText_slash text
  rw [same]
  rfl

/-- An own home folder from the root on. An empty one stands for the root. -/
def IsRooted (home : Text) : Prop :=
  home = [] ∨ home.head? = some '/'

theorem IsRooted.trimEnd {own : Text} (rooted : IsRooted own) (inClass : Char → Bool) :
    IsRooted (Text.trimEnd inClass own) := by
  obtain ⟨after, whole⟩ := List.rdropWhile_prefix inClass own
  cases kept : Text.trimEnd inClass own with
  | nil => exact .inl rfl
  | cons first rest =>
      have shape : own = first :: (rest ++ after) := by
        rw [← whole]
        exact congrArg (· ++ after) kept
      rcases rooted with rfl | slash
      · cases shape
      · rw [shape] at slash
        exact .inr slash

theorem IsRooted.homeOf {own user home : Text} (rooted : IsRooted own)
    (told : Path.homeOf own user = .ok home) : IsRooted home := by
  unfold Path.homeOf at told
  split at told
  · cases told
  · split at told
    · cases told
      exact rooted.trimEnd _
    · split at told
      · cases told
        exact .inr rfl
      · cases told

/-- Expanding a path gives a path from the root on, if it changes the path at all. -/
theorem expandHome_cases {home : Text} {path expanded : Path} (rooted : IsRooted home)
    (found : path.expandHome home = .ok expanded) :
    expanded = path ∨ ∃ root parts, expanded = ('/' :: root) :: parts := by
  unfold expandHome at found
  split at found
  · next user rest =>
      split at found
      · cases found
      · cases found
      · cases found
        exact .inr ⟨[], rest, rfl⟩
      · next written notTilde notEmpty told =>
          cases found
          obtain ⟨text, rfl⟩ := List.head?_eq_some_iff.mp
            ((rooted.homeOf told).resolve_left (by intro empty; cases empty; exact notEmpty rfl))
          obtain ⟨root, parts, same⟩ := exists_ofText_slash text
          exact .inr ⟨root, parts ++ rest, by rw [same]; rfl⟩
  · cases found
    exact .inl rfl

/-- A path that was expanded stays as it is when it is expanded again. -/
theorem expandHome_of_expandHome {home : Text} {path expanded : Path} (rooted : IsRooted home)
    (found : path.expandHome home = .ok expanded) : expanded.expandHome home = .ok expanded := by
  rcases expandHome_cases rooted found with rfl | ⟨root, parts, rfl⟩
  · exact found
  · rfl

theorem IsWritten.isPart_of_relative {path : Path} (written : path.IsWritten)
    (relative : path.isAbsolute = false) {part : Text} (member : part ∈ path) : IsPart part := by
  obtain ⟨root, parts, same, isRootPath, areParts⟩ := ofText_spec path.toText
  have whole : path = root ++ parts := written.symm.trans same
  rcases isRootPath with rfl | rfl | rfl
  · rw [whole, List.nil_append] at member
    exact areParts part member
  · cases whole ▸ relative
  · cases whole ▸ relative

theorem isWritten_expandHome {home : Text} {path expanded : Path} (written : path.IsWritten)
    (found : path.expandHome home = .ok expanded) : expanded.IsWritten := by
  unfold expandHome at found
  split at found
  · next user rest =>
      have areParts : ∀ part ∈ rest, IsPart part := fun part member =>
        written.isPart_of_relative rfl (List.mem_cons_of_mem _ member)
      split at found
      · cases found
      · cases found
      · cases found
        exact isWritten_append (.inr (.inl rfl)) areParts
      · next own _ _ _ =>
          cases found
          exact (isWritten_ofText own).append areParts
  · cases found
    exact written

theorem exists_toText_slash (root : Text) (parts : Path) :
    ∃ text, toText (('/' :: root) :: parts) = '/' :: text := by
  rw [toText]
  split
  · exact ⟨root ++ Text.join ['/'] parts, rfl⟩
  · exact List.head?_eq_some_iff.mp (Text.head?_join_cons ['/'] (List.cons_ne_nil '/' root) parts)

/-! ## Suffixes -/

private theorem behind_lastDot {suffix : Text} (noDot : '.' ∉ suffix) (stem : Text) :
    ((stem ++ '.' :: suffix).reverse.takeWhile (· != '.')).reverse = suffix := by
  have noDotBehind : '.' ∉ suffix.reverse := fun member => noDot (List.mem_reverse.mp member)
  rw [List.reverse_append, List.reverse_cons, List.append_assoc, List.singleton_append,
    Text.takeWhile_bne_append_cons noDotBehind, List.reverse_reverse]

private theorem exists_lastDot {name : Text} (dotted : '.' ∈ name) :
    ∃ stem suffix, name = stem ++ '.' :: suffix ∧ '.' ∉ suffix := by
  obtain ⟨behind, before, shape, noDot⟩ :=
    List.eq_append_cons_of_mem (List.mem_reverse.mpr dotted)
  refine ⟨before.reverse, behind.reverse, ?_, by simpa using noDot⟩
  rw [← List.reverse_reverse name, shape]
  simp

/-- The last dot of a name cuts it into a stem and a suffix, when neither of them is empty. -/
theorem stemAndSuffix_of_lastDot {path : Path} {stem suffix : Text}
    (named : path.name = stem ++ '.' :: suffix) (noDot : '.' ∉ suffix) :
    path.stemAndSuffix =
      if stem ≠ [] ∧ suffix ≠ [] then (stem, '.' :: suffix) else (path.name, []) := by
  have before : (stem ++ '.' :: suffix).take
      ((stem ++ '.' :: suffix).length - suffix.length - 1) = stem := by
    have length : (stem ++ '.' :: suffix).length - suffix.length - 1 = stem.length := by
      simp only [List.length_append, List.length_cons]
      omega
    rw [length, List.take_left]
  unfold stemAndSuffix
  simp only [named, behind_lastDot noDot, before]
  simp [and_comm]

theorem name_concat {part : Text} (noRoot : isRoot part = false) (above : Path) :
    name (above ++ [part]) = part := by
  simp [name, noRoot]

theorem exists_above_of_name {path : Path} (named : path.name ≠ []) :
    ∃ above, path = above ++ [path.name] := by
  unfold name at named ⊢
  split at named
  · next part last =>
      split at named
      · exact absurd rfl named
      · next noRoot =>
          rw [if_neg noRoot]
          exact List.getLast?_eq_some_iff.mp last
  · exact absurd rfl named

theorem suffix_cases (path : Path) :
    path.stemAndSuffix.2 = [] ∨
      ∃ above stem suffix, path = above ++ [stem ++ '.' :: suffix] ∧ stem ≠ [] ∧
        path.stemAndSuffix.2 = '.' :: suffix := by
  by_cases dotted : '.' ∈ path.name
  · obtain ⟨stem, suffix, named, noDot⟩ := exists_lastDot dotted
    obtain ⟨above, whole⟩ := exists_above_of_name (List.ne_nil_of_mem dotted)
    rw [stemAndSuffix_of_lastDot named noDot]
    split
    · next both =>
        rw [named] at whole
        exact .inr ⟨above, stem, suffix, whole, both.1, rfl⟩
    · exact .inl rfl
  · left
    simp [stemAndSuffix, dotted]

theorem isMarkdown_iff {path : Path} :
    path.isMarkdown = true ↔ ∃ above stem suffix, path = above ++ [stem ++ '.' :: suffix] ∧
      stem ≠ [] ∧ Text.lower suffix = "md".toList := by
  have lowered (suffix : Text) :
      (Text.lower ('.' :: suffix) == ".md".toList) = true ↔ Text.lower suffix = "md".toList := by
    have shape : ".md".toList = '.' :: "md".toList := by decide
    have dot : Char.toLower '.' = '.' := by decide
    rw [beq_iff_eq, shape, Text.lower, List.map_cons, dot, List.cons.injEq]
    exact and_iff_right rfl
  unfold isMarkdown
  constructor
  · intro markdown
    rcases suffix_cases path with none | ⟨above, stem, suffix, shape, hasStem, found⟩
    · rw [none] at markdown
      exact absurd markdown (by decide)
    · rw [found, lowered] at markdown
      exact ⟨above, stem, suffix, shape, hasStem, markdown⟩
  · rintro ⟨above, stem, suffix, rfl, hasStem, markdown⟩
    have noDot : '.' ∉ suffix := fun dot => by
      have inside : Char.toLower '.' ∈ Text.lower suffix := List.mem_map_of_mem dot
      rw [markdown] at inside
      exact absurd inside (by decide)
    have hasSuffix : suffix ≠ [] := by
      rintro rfl
      exact absurd markdown (by decide)
    have noRoot : isRoot (stem ++ '.' :: suffix) = false := by
      have dot : '.' ∈ stem ++ '.' :: suffix := by simp
      rw [isRoot, Bool.or_eq_false_iff, beq_eq_false_iff_ne, beq_eq_false_iff_ne]
      constructor <;> intro same <;> simp [same] at dot
    rw [stemAndSuffix_of_lastDot (name_concat noRoot above) noDot, if_pos ⟨hasStem, hasSuffix⟩]
    exact (lowered suffix).mpr markdown

end DocComponents.Path
