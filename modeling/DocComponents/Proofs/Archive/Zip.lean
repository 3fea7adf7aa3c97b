import DocComponents.Archive.Zip
import DocComponents.Proofs.Text.Utf8
import Mathlib.Algebra.Group.Nat.Defs
import Mathlib.Data.List.Forall2

/-!
# Archives are read back

The members that an archive is written for are read from it. Every part of an archive is read with
whatever stands behind it, so that a line is read in front of the lines that follow, and a record
where its line leads, with other records in front of it and behind it.
-/

set_option autoImplicit false

namespace DocComponents.Archive

/-! ## Fields -/

@[simp]
theorem length_writeNumber (width value : Nat) : (writeNumber width value).length = width := by
  induction width generalizing value with
  | zero => rfl
  | succ width ih => rw [writeNumber, List.length_cons, ih]

theorem readNumber_writeNumber {width value : Nat} (small : value < 256 ^ width) :
    readNumber (writeNumber width value) = value := by
  induction width generalizing value with
  | zero =>
      rw [Nat.lt_one_iff.mp small]
      rfl
  | succ width ih =>
      have smaller : value / 256 < 256 ^ width :=
        Nat.div_lt_of_lt_mul (by rwa [Nat.pow_succ, Nat.mul_comm] at small)
      rw [writeNumber, readNumber, ih smaller, UInt8.toNat_ofNat']
      exact Nat.mod_add_div value 256

/-- Numbers that their fields have room for. -/
def FitFields (widths values : List Nat) : Prop :=
  List.Forall₂ (fun width value => value < 256 ^ width) widths values

theorem readFields_writeFields {widths values : List Nat} (fit : FitFields widths values)
    (rest : Bytes) : readFields widths (writeFields widths values ++ rest) = (values, rest) := by
  induction fit with
  | nil => rfl
  | cons small others ih =>
      rw [writeFields, List.append_assoc, readFields, List.drop_left' (length_writeNumber _ _), ih,
        List.take_left' (length_writeNumber _ _), readNumber_writeNumber small]

namespace Zip

theorem readMarked?_writeMarked {mark : Nat} {widths values : List Nat} (small : mark < 2 ^ 32)
    (fit : FitFields widths values) (rest : Bytes) :
    readMarked? mark widths (writeMarked mark widths values ++ rest) = some (values, rest) := by
  rw [writeMarked, List.append_assoc, readMarked?, List.take_left' (length_writeNumber _ _),
    List.drop_left' (length_writeNumber _ _), readNumber_writeNumber small, if_pos rfl,
    readFields_writeFields fit]

/-! ## Wide numbers -/

theorem narrow_lt (number : Nat) : narrow number < 2 ^ 32 := by
  unfold narrow wideFrom isElsewhere
  split <;> omega

theorem narrow_of_wide {number : Nat} (wide : wideFrom ≤ number) : narrow number = isElsewhere :=
  if_neg (Nat.not_lt.mpr wide)

theorem narrow_of_not_wide {number : Nat} (small : ¬ wideFrom ≤ number) :
    narrow number = number ∧ number ≠ isElsewhere := by
  unfold wideFrom at small
  unfold narrow wideFrom isElsewhere
  rw [if_pos (by omega)]
  exact ⟨rfl, by omega⟩

theorem drop_wideNumbers (numbers : List Nat) :
    (wideNumbers numbers).drop 4 =
      (numbers.filter (wideFrom ≤ ·)).flatMap (writeNumber 8) := by
  unfold wideNumbers
  dsimp only
  split
  · next nothing => rw [List.isEmpty_iff.mp nothing, List.drop_nil]
  · exact List.drop_left' (by simp)

theorem length_wideNumbers_le (numbers : List Nat) :
    (wideNumbers numbers).length ≤ 4 + 8 * numbers.length := by
  have fewer := List.length_filter_le (wideFrom ≤ ·) numbers
  unfold wideNumbers
  dsimp only
  split
  · exact Nat.zero_le _
  · simp only [List.length_append, length_writeNumber, List.length_flatMap, List.map_const',
      List.sum_replicate_nat]
    omega

theorem widen_narrow {numbers : List Nat} (small : ∀ number ∈ numbers, number < 2 ^ 64) :
    widen (numbers.map narrow) ((wideNumbers numbers).drop 4) = numbers := by
  rw [drop_wideNumbers]
  induction numbers with
  | nil => rfl
  | cons number others ih =>
      have rest := ih fun other inside => small other (List.mem_cons_of_mem _ inside)
      by_cases wide : wideFrom ≤ number
      · have fits : number < 256 ^ 8 := small number List.mem_cons_self
        rw [List.filter_cons_of_pos (by simpa using wide), List.flatMap_cons, List.map_cons,
          narrow_of_wide wide, widen, if_pos rfl, List.take_left' (length_writeNumber _ _),
          List.drop_left' (length_writeNumber _ _), readNumber_writeNumber fits, rest]
      · obtain ⟨same, apart⟩ := narrow_of_not_wide wide
        rw [List.filter_cons_of_neg (by simpa using wide), List.map_cons, same, widen,
          if_neg apart, rest]

/-! ## Heads -/

/-- What the fields of a head have room for. -/
structure Head.Fits (head : Head) : Prop where
  name : (Utf8.encode head.name).length < 2 ^ 16
  checksum : head.checksum < 2 ^ 32
  size : head.size < 2 ^ 64

theorem Member.fits_head {member : Member}
    (name : (Utf8.encode member.name).length < 2 ^ 16) (size : member.contents.length < 2 ^ 64) :
    member.head.Fits :=
  ⟨name, UInt32.toNat_lt _, size⟩

variable {head : Head} {start : Nat}

theorem Head.Fits.numbers (fits : head.Fits) {others : List Nat} (few : others.length ≤ 3) :
    FitFields headFields (head.numbers (wideNumbers others)) := by
  have isVersion : version (wideNumbers others) < 2 ^ 16 := by
    unfold version
    split <;> omega
  have isNoted : (if head.name.all (·.toNat < 128) then 0 else 0x0800) < 2 ^ 16 := by
    split <;> omega
  have narrowSize := narrow_lt head.size
  have short : (wideNumbers others).length < 2 ^ 16 := by
    have most := length_wideNumbers_le others
    omega
  exact .cons isVersion <| .cons isNoted <| .cons (Nat.two_pow_pos 16) <|
    .cons (UInt16.toNat_lt _) <| .cons (UInt16.toNat_lt _) <| .cons fits.checksum <|
    .cons narrowSize <| .cons narrowSize <| .cons fits.name <| .cons short .nil

theorem readHead?_numbers (fits : head.Fits) (inside : start < 2 ^ 64) (rest : Bytes) :
    readHead? (head.numbers (wideNumbers [head.size, head.size, start])) (narrow start)
      (Utf8.encode head.name ++ wideNumbers [head.size, head.size, start] ++ rest) =
        some ((head, start), rest) := by
  have small : ∀ number ∈ [head.size, head.size, start], number < 2 ^ 64 := by
    simp only [List.forall_mem_cons, List.not_mem_nil, false_implies, implies_true, and_true]
    exact ⟨fits.size, fits.size, inside⟩
  have widened := widen_narrow small
  simp only [List.map_cons, List.map_nil] at widened
  unfold readHead? Head.numbers
  dsimp only
  rw [List.append_assoc, List.take_left, List.drop_left, List.take_left, widened,
    Utf8.decode_encode, ← List.append_assoc, List.drop_left' (List.length_append ..)]
  dsimp only
  rw [if_pos rfl, UInt16.ofNat_toNat, UInt16.ofNat_toNat]

theorem wideNumbers_record (size : Nat) :
    wideNumbers [size, size] = wideNumbers [size, size, 0] := by
  unfold wideNumbers
  rw [show [size, size, 0] = [size, size] ++ [0] from rfl, List.filter_append]
  simp [wideFrom]

theorem readRecord?_record {member : Member} (fits : member.head.Fits) (rest : Bytes) :
    readRecord? (member.record ++ rest) = some (member.head, member.contents ++ rest) := by
  have numbers : FitFields headFields
      (member.head.numbers (wideNumbers [member.head.size, member.head.size])) :=
    fits.numbers (by simp)
  have read := readHead?_numbers fits (Nat.two_pow_pos 64) (member.contents ++ rest)
  rw [← wideNumbers_record] at read
  rw [readRecord?, Member.record]
  simp only [List.append_assoc] at read ⊢
  rw [readMarked?_writeMarked (by decide) numbers]
  dsimp only
  exact congrArg (Option.map _) read

theorem readLine?_line (fits : head.Fits) (inside : start < 2 ^ 64) (rest : Bytes) :
    readLine? (head.line start ++ rest) = some ((head, start), rest) := by
  have numbers : FitFields headFields
      (head.numbers (wideNumbers [head.size, head.size, start])) :=
    fits.numbers (by simp)
  have opening : FitFields lineOpening
      [0x0300 + version (wideNumbers [head.size, head.size, start])] := by
    refine .cons ?_ .nil
    unfold version
    split <;> omega
  have closing : FitFields lineClosing [0, 0, 0, head.permissions, narrow start] := by
    have permissions : head.permissions < 2 ^ 32 := by
      unfold Head.permissions
      split <;> omega
    exact .cons (by omega) <| .cons (by omega) <| .cons (by omega) <| .cons permissions <|
      .cons (narrow_lt start) .nil
  have read := readHead?_numbers fits inside rest
  rw [readLine?, Head.line]
  simp only [List.append_assoc] at read ⊢
  rw [readMarked?_writeMarked (by decide) opening]
  dsimp only
  rw [readFields_writeFields numbers]
  dsimp only
  rw [readFields_writeFields closing]
  exact read

/-! ## The directory -/

/-- What the lines tell of members whose records stand from a place on. -/
def placed : (start : Nat) → List Member → List (Head × Nat)
  | _, [] => []
  | start, member :: rest => (member.head, start) :: placed (start + member.record.length) rest

variable {members : List Member}

theorem readLines?_directory (fits : ∀ member ∈ members, member.head.Fits)
    (inside : start + (members.flatMap Member.record).length < 2 ^ 64) (rest : Bytes) :
    readLines? members.length (directory start members ++ rest) = some (placed start members) := by
  induction members generalizing start with
  | nil => rfl
  | cons member others ih =>
      rw [List.flatMap_cons, List.length_append] at inside
      have here : start < 2 ^ 64 := by omega
      have later : start + member.record.length + (others.flatMap Member.record).length <
        2 ^ 64 := by omega
      have read := readLine?_line (fits member List.mem_cons_self) here
        (directory (start + member.record.length) others ++ rest)
      have readOthers := ih (fun other isOther => fits other (List.mem_cons_of_mem _ isOther)) later
      rw [directory, List.append_assoc, List.length_cons, readLines?, read]
      dsimp only
      rw [readOthers]
      rfl

theorem readMember?_head {member : Member} (fits : member.head.Fits) (lead rest : Bytes) :
    readMember? (lead ++ (member.record ++ rest)) (member.head, lead.length) = some member := by
  have contents : (member.contents ++ rest).take member.head.size = member.contents :=
    List.take_left
  rw [readMember?, List.drop_left, readRecord?_record fits]
  dsimp only
  rw [contents]
  simp [Member.head]

/-- Every line leads to its member, whatever stands in front of the records and behind them. -/
theorem mapM_readMember?_placed (fits : ∀ member ∈ members, member.head.Fits)
    (lead rest : Bytes) :
    (placed lead.length members).mapM
      (readMember? (lead ++ (members.flatMap Member.record ++ rest))) = some members := by
  induction members generalizing lead with
  | nil => rfl
  | cons member others ih =>
      have read := readMember?_head (fits member List.mem_cons_self) lead
        (others.flatMap Member.record ++ rest)
      have readOthers := ih (fun other isOther => fits other (List.mem_cons_of_mem _ isOther))
        (lead ++ member.record)
      rw [List.length_append, List.append_assoc] at readOthers
      rw [placed, List.mapM_cons, List.flatMap_cons, List.append_assoc, read, readOthers]
      rfl

theorem length_le_length_directory (start : Nat) (members : List Member) :
    members.length ≤ (directory start members).length := by
  induction members generalizing start with
  | nil => exact Nat.zero_le _
  | cons member others ih =>
      have some : 4 ≤ (member.head.line start).length := by
        simp only [Head.line, writeMarked, List.length_append, length_writeNumber]
        omega
      have more := ih (start + member.record.length)
      rw [directory, List.length_append, List.length_cons]
      omega

/-! ## The end -/

theorem readWideEnd?_append {count size : Nat} {lead final : Bytes}
    (reached : lead.length = start + size) (inside : start + size < 2 ^ 64)
    (few : count < 2 ^ 64) (last : final.length = 22) :
    readWideEnd? (lead ++
      (writeMarked wideEndMark wideEndFields [44, 45, 45, 0, 0, count, count, size, start] ++
        (writeMarked locatorMark locatorFields [0, start + size, 1] ++ final))) =
          some (count, start) := by
  set wideEnd := writeMarked wideEndMark wideEndFields
    [44, 45, 45, 0, 0, count, count, size, start] with isWideEnd
  set locator := writeMarked locatorMark locatorFields [0, start + size, 1] with isLocator
  have locatorLength : locator.length = 20 := by
    simp [isLocator, writeMarked, locatorFields, writeFields]
  have readLocator : readMarked? locatorMark locatorFields (locator ++ final) =
      some ([0, start + size, 1], final) :=
    readMarked?_writeMarked (by decide)
      (.cons (by omega) <| .cons inside <| .cons (by omega) .nil) final
  have readWide : readMarked? wideEndMark wideEndFields (wideEnd ++ (locator ++ final)) =
      some ([44, 45, 45, 0, 0, count, count, size, start], locator ++ final) :=
    readMarked?_writeMarked (by decide)
      (.cons (by omega) <| .cons (by omega) <| .cons (by omega) <| .cons (by omega) <|
        .cons (by omega) <| .cons few <| .cons few <| .cons (by omega) <| .cons (by omega) .nil) _
  have toLocator : (lead ++ (wideEnd ++ (locator ++ final))).drop
      ((lead ++ (wideEnd ++ (locator ++ final))).length - 42) = locator ++ final := by
    rw [← List.append_assoc lead]
    refine List.drop_left' ?_
    simp only [List.length_append, locatorLength, last]
    omega
  unfold readWideEnd?
  rw [toLocator, readLocator]
  dsimp only
  rw [List.drop_left' reached, readWide]

theorem readEnd?_ending {count size : Nat} {lead : Bytes} (reached : lead.length = start + size)
    (inside : start + size < 2 ^ 64) (few : count < 2 ^ 64) :
    readEnd? (lead ++ ending count size start) = some (count, start) := by
  unfold ending
  dsimp only
  set final := writeMarked endMark endFields
    [0, 0, min count 0xFFFF, min count 0xFFFF, min size 0xFFFFFFFF, min start 0xFFFFFFFF, 0]
    with isFinal
  have last : final.length = 22 := by simp [isFinal, writeMarked, endFields, writeFields]
  have readFinal (before : Bytes) : readMarked? endMark endFields
      ((before ++ final).drop ((before ++ final).length - 22)) = some
        ([0, 0, min count 0xFFFF, min count 0xFFFF, min size 0xFFFFFFFF, min start 0xFFFFFFFF, 0],
          []) := by
    rw [List.drop_left' (by rw [List.length_append, last, Nat.add_sub_cancel]),
      ← List.append_nil final]
    refine readMarked?_writeMarked (by decide) ?_ []
    exact .cons (by omega) <| .cons (by omega) <| .cons (by omega) <| .cons (by omega) <|
      .cons (by omega) <| .cons (by omega) <| .cons (by omega) .nil
  unfold readEnd?
  rw [← List.append_assoc, readFinal]
  dsimp only
  simp only [Bool.and_eq_true, Bool.or_eq_true, decide_eq_true_eq]
  by_cases small : count < 0xFFFF ∧ start < 0xFFFFFFFF
  · rw [if_pos (by omega), Nat.min_eq_left (Nat.le_of_lt small.1),
      Nat.min_eq_left (Nat.le_of_lt small.2)]
  · have isWide : (0xFFFF ≤ count ∨ wideFrom ≤ size) ∨ wideFrom ≤ start := by
      unfold wideFrom
      omega
    rw [if_neg (by omega), if_pos isWide, List.append_assoc, List.append_assoc]
    exact readWideEnd?_append reached inside few last

/-! ## The archive -/

theorem length_contents_le {member : Member} (inside : member ∈ members) :
    member.contents.length ≤ (members.flatMap Member.record).length := by
  have part := (List.sublist_flatten_of_mem
    (List.mem_map_of_mem (f := Member.record) inside)).length_le
  rw [← List.flatMap_def, Member.record, List.length_append] at part
  omega

/-- The members of an archive are read back, if their names fit and an archive can be that large. -/
theorem read?_write
    (names : ∀ member ∈ members, (Utf8.encode member.name).length < 2 ^ 16)
    (small : (write members).length < 2 ^ 64) : read? (write members) = some members := by
  unfold write at small ⊢
  dsimp only at small ⊢
  set records := members.flatMap Member.record with isRecords
  set lines := directory 0 members with isLines
  rw [List.length_append, List.length_append] at small
  have inside : records.length + lines.length < 2 ^ 64 := by omega
  have few : members.length < 2 ^ 64 := by
    have fewer := length_le_length_directory 0 members
    rw [← isLines] at fewer
    omega
  have fits : ∀ member ∈ members, member.head.Fits := by
    intro member inside
    have less : member.contents.length ≤ records.length := length_contents_le inside
    exact Member.fits_head (names member inside) (by omega)
  have reached : (records ++ lines).length = records.length + lines.length :=
    List.length_append ..
  have ends := readEnd?_ending reached inside few
  have placedInside : 0 + (members.flatMap Member.record).length < 2 ^ 64 := by
    rw [← isRecords]
    omega
  have readLines := readLines?_directory fits placedInside
    (ending members.length lines.length records.length)
  have readMembers := mapM_readMember?_placed fits []
    (lines ++ ending members.length lines.length records.length)
  rw [read?, ends]
  dsimp only [bind, Option.bind]
  rw [List.append_assoc, List.drop_left, readLines]
  exact readMembers

end Zip

end DocComponents.Archive
