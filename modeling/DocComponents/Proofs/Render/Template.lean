import DocComponents.Proofs.Identifier
import DocComponents.Proofs.Markup.Delimiters
import DocComponents.Proofs.Text.Scan
import DocComponents.Render.Template

/-!
# Filling in a template

A placeholder is a prop key between double braces, with blanks of ASCII around it. None of its
characters delimits markup, and the escaped value that takes its place holds no delimiter either, so
a template keeps its delimiters whatever the props are.
-/

set_option autoImplicit false

namespace DocComponents.Template

/-- What stands for a prop in a template. -/
inductive IsPlaceholder : (source key : Text) → Prop where
  | mk {before key after : Text} (blanksBefore : ∀ char ∈ before, Text.isAsciiBlank char = true)
      (named : isPropKey key = true) (blanksAfter : ∀ char ∈ after, Text.isAsciiBlank char = true) :
      IsPlaceholder ('{' :: '{' :: before ++ key ++ after ++ ['}', '}']) key

theorem isNameChar_eq_false_of_isAsciiBlank {char : Char} (blank : Text.isAsciiBlank char = true) :
    isNameChar char = false := by
  have points : char.toNat = 0x20 ∨ 0x09 ≤ char.toNat ∧ char.toNat ≤ 0x0D := by
    have space : char = ' ' ↔ char.toNat = 0x20 :=
      ⟨fun same => by rw [same]; rfl, fun same => Char.toNat_inj.mp same⟩
    simpa [Text.isAsciiBlank, Text.withinRanges, space] using blank
  rw [← Bool.not_eq_true, isNameChar_eq_true_iff]
  omega

private theorem dropWhile_blanks_append {blanks rest : Text}
    (blank : ∀ char ∈ blanks, Text.isAsciiBlank char = true)
    (ends : ∀ char, rest.head? = some char → Text.isAsciiBlank char = false) :
    (blanks ++ rest).dropWhile Text.isAsciiBlank = rest := by
  rw [List.dropWhile_append_of_pos blank]
  cases rest with
  | nil => rfl
  | cons char others => rw [List.dropWhile_cons_of_neg (by simp [ends char rfl])]

/-- A placeholder is recognised whatever follows it. -/
theorem IsPlaceholder.recognise_append {source key : Text} (placeholder : IsPlaceholder source key)
    (rest : Text) : recognisePlaceholder (source ++ rest) = some (key, source.length) := by
  obtain @⟨before, key, after, blanksBefore, named, blanksAfter⟩ := placeholder
  have shape : '{' :: '{' :: before ++ key ++ after ++ ['}', '}'] ++ rest =
      '{' :: '{' :: (before ++ (key ++ (after ++ '}' :: '}' :: rest))) := by
    simp
  have inside : (before ++ (key ++ (after ++ '}' :: '}' :: rest))).dropWhile Text.isAsciiBlank =
      key ++ (after ++ '}' :: '}' :: rest) := by
    apply dropWhile_blanks_append blanksBefore
    intro char found
    rw [List.head?_append_of_ne_nil _ (ne_nil_of_isName named)] at found
    have inKey := isNameChar_of_mem_propKey named (List.mem_of_mem_head? found)
    by_contra blank
    rw [isNameChar_eq_false_of_isAsciiBlank (by simpa using blank)] at inKey
    cases inKey
  have ends : EndsName (after ++ '}' :: '}' :: rest) := by
    cases after with
    | nil => exact endsName_cons (by decide) _
    | cons char others =>
        exact endsName_cons
          (isNameChar_eq_false_of_isAsciiBlank (blanksAfter char List.mem_cons_self)) _
  have taken : takeKey? (key ++ (after ++ '}' :: '}' :: rest)) =
      some (key, after ++ '}' :: '}' :: rest) :=
    takeName?_append named ends
  have closing : (after ++ '}' :: '}' :: rest).dropWhile Text.isAsciiBlank =
      '}' :: '}' :: rest :=
    dropWhile_blanks_append blanksAfter fun char found => by
      cases found
      decide
  rw [shape, recognisePlaceholder, inside, taken]
  dsimp only
  rw [closing]
  simp
  omega

theorem exists_isPlaceholder_of_recognise {text key : Text} {size : Nat}
    (accepted : recognisePlaceholder text = some (key, size)) :
    ∃ source rest, text = source ++ rest ∧ source.length = size ∧ IsPlaceholder source key := by
  unfold recognisePlaceholder at accepted
  split at accepted
  · next inside =>
      split at accepted
      · cases accepted
      · next name afterKey taken =>
          split at accepted
          · next rest closing =>
              obtain ⟨named, behind⟩ := isName_of_takeName? taken
              have start := List.takeWhile_append_dropWhile
                (p := Text.isAsciiBlank) (l := inside)
              have finish := List.takeWhile_append_dropWhile
                (p := Text.isAsciiBlank) (l := afterKey)
              rw [behind] at start
              rw [closing] at finish
              simp only [Option.some.injEq, Prod.mk.injEq] at accepted
              obtain ⟨rfl, sized⟩ := accepted
              have placeholder := IsPlaceholder.mk
                (fun _ => List.mem_takeWhile_imp (p := Text.isAsciiBlank) (l := inside)) named
                (fun _ => List.mem_takeWhile_imp (p := Text.isAsciiBlank) (l := afterKey))
              refine ⟨_, rest, ?_, ?_, placeholder⟩
              · conv_lhs => rw [← start, ← finish]
                simp
              · have lengths := congrArg List.length start
                have lengthsBehind := congrArg List.length finish
                simp only [List.length_append, List.length_cons, List.length_nil] at *
                omega
          · cases accepted
  · cases accepted

/-- Placeholders are what is recognised in a template. -/
theorem recognises_placeholder :
    Text.Recognises (fun _ => recognisePlaceholder) fun _ source key _ =>
      IsPlaceholder source key where
  accepts_iff := by
    intro _ text key size
    refine ⟨exists_isPlaceholder_of_recognise, ?_⟩
    rintro ⟨source, rest, rfl, rfl, placeholder⟩
    exact placeholder.recognise_append rest
  ne_nil := by
    rintro _ _ _ _ ⟨_, _, _⟩
    simp

theorem IsPlaceholder.delimiters_eq_nil {source key : Text}
    (placeholder : IsPlaceholder source key) : Markup.delimiters source = [] := by
  obtain @⟨before, _, after, blanksBefore, named, blanksAfter⟩ := placeholder
  have none : ∀ {text : Text} {inClass : Char → Bool},
      (∀ char ∈ text, inClass char = true) → ['<', '>', '"'].all (!inClass ·) = true →
        Markup.delimiters text = [] := by
    intro text inClass inside outside
    rw [Markup.delimiters_eq_nil_iff]
    intro char member
    have apart : ∀ other ∈ ['<', '>', '"'], char ≠ other := by
      rintro other excluded rfl
      have apart := List.all_eq_true.mp outside char excluded
      simp [inside char member] at apart
    simp only [List.mem_cons, List.not_mem_nil, or_false, forall_eq_or_imp, forall_eq] at apart
    simp [Markup.isDelimiter, apart]
  have blanks : ['<', '>', '"'].all (!Text.isAsciiBlank ·) = true := by decide
  have names : ['<', '>', '"'].all (!isNameChar ·) = true := by decide
  have braces : Markup.delimiters ['{', '{'] = [] ∧ Markup.delimiters ['}', '}'] = [] := by decide
  have shape : '{' :: '{' :: before ++ key ++ after ++ ['}', '}'] =
      ['{', '{'] ++ before ++ key ++ after ++ ['}', '}'] := rfl
  rw [shape]
  simp only [Markup.delimiters_append, braces, none blanksBefore blanks, none blanksAfter blanks,
    none (fun _ => isNameChar_of_mem_propKey named) names, List.append_nil]

/-- Hits that give way to texts with the same delimiters leave the delimiters of a text in place. -/
theorem delimiters_replaceHits {α : Type} {write : α → Text} {pieces : List (Text.Piece α)}
    (same : ∀ source value, .hit source value ∈ pieces →
      Markup.delimiters (write value) = Markup.delimiters source) :
    Markup.delimiters (Text.replaceHits write pieces) =
      Markup.delimiters (pieces.flatMap Text.Piece.source) := by
  induction pieces with
  | nil => rfl
  | cons piece rest ih =>
      have later := ih fun source value member => same source value (List.mem_cons_of_mem _ member)
      rw [Text.replaceHits, List.flatMap_cons, List.flatMap_cons, Markup.delimiters_append,
        Markup.delimiters_append]
      refine congrArg₂ _ ?_ later
      cases piece with
      | plain char => rfl
      | hit source value => exact same source value List.mem_cons_self

/-- A filled-in template has the delimiters of the template, in the same order. -/
theorem delimiters_substitute (template : Text) (props : Props) :
    Markup.delimiters (substitute template props) = Markup.delimiters template := by
  have cuts := recognises_placeholder.cuts_scanFrom template 0 none
  have empty : ∀ source key, .hit source key ∈ Text.scan recognisePlaceholder template →
      Markup.delimiters (Markup.escape (props.get key)) = Markup.delimiters source := by
    intro source key member
    obtain ⟨_, _, placeholder⟩ := cuts.isHit_of_mem member
    rw [Markup.delimiters_escape, placeholder.delimiters_eq_nil]
  rw [substitute, delimiters_replaceHits empty, Text.source_scan]

end DocComponents.Template
