/-
This file proves which strings are account names. The loop that goes over a name
with two indices accepts what a split of the name at its dots into valid labels
accepts, and that is the names made of labels joined by dots.
-/

import Zattera.Protocol.NameScan

namespace Zattera

/-! ### One label -/

/-- The byte is one that a label may have inside. -/
def isInner (byte : Nat) : Bool := isLowerCase byte || isDigit byte || decide (byte = 45)

theorem getD_append_length {before after : List Nat} {byte : Nat} :
    (before ++ byte :: after).getD before.length 0 = byte := by
  simp [List.getD_eq_getElem?_getD]

theorem map_getD_range' (before middle after : List Nat) :
    (List.range' before.length middle.length).map (fun i => (before ++ (middle ++ after)).getD i 0) =
      middle := by
  refine List.ext_getElem (by simp) fun place inside _ => ?_
  rw [List.length_map, List.length_range'] at inside
  rw [List.getElem_map, List.getElem_range', Nat.one_mul, List.getD_eq_getElem?_getD,
    List.getElem?_append_right (Nat.le_add_right _ _), Nat.add_sub_cancel_left,
    List.getElem?_append_left inside, List.getElem?_eq_getElem inside, Option.getD_some]

/-- The indices of the loop find the characters of the label. -/
theorem checkLabel_append (before after middle : List Nat) (first last : Nat) :
    checkLabel (before ++ (first :: (middle ++ last :: after))) before.length
      (before.length + (middle.length + 2)) =
        (isLowerCase first && (isLowerCase last || isDigit last) && middle.all isInner) := by
  have start : (before ++ (first :: (middle ++ last :: after))).getD before.length 0 = first :=
    getD_append_length
  have stop : (before ++ (first :: (middle ++ last :: after))).getD
      (before.length + (middle.length + 2) - 1) 0 = last := by
    have place : before.length + (middle.length + 2) - 1 = (before ++ first :: middle).length := by
      rw [List.length_append, List.length_cons]
      omega
    rw [place]
    have found := @getD_append_length (before ++ first :: middle) after last
    rwa [List.append_assoc, List.cons_append] at found
  have inner := map_getD_range' (before ++ [first]) middle (last :: after)
  rw [List.length_append, List.length_singleton, List.append_assoc, List.singleton_append] at inner
  have count : before.length + (middle.length + 2) - 1 - (before.length + 1) = middle.length := by
    omega
  unfold checkLabel
  rw [start, stop, count]
  congr 1
  conv_rhs => rw [← inner, List.all_map]
  rfl

theorem exists_ends {label : List Nat} (long : 3 ≤ label.length) :
    ∃ first middle last, label = first :: (middle ++ [last]) := by
  obtain ⟨first, rest, rfl⟩ := List.exists_cons_of_length_pos (by omega : 0 < label.length)
  have filled : rest ≠ [] := List.ne_nil_of_length_pos (by rw [List.length_cons] at long; omega)
  exact ⟨first, rest.dropLast, rest.getLast filled, by rw [List.dropLast_append_getLast]⟩

theorem isValidLabel_ends (first last : Nat) (middle : List Nat) :
    isValidLabel (first :: (middle ++ [last])) = (decide (1 ≤ middle.length) &&
      (isLowerCase first && (isLowerCase last || isDigit last) && middle.all isInner)) := by
  simp [isValidLabel, Bool.and_assoc]
  rfl

/-- The loop looks at a label as `isValidLabel` does. -/
theorem checkLabel_eq {before label after : List Nat} (long : 3 ≤ label.length) :
    checkLabel (before ++ (label ++ after)) before.length (before.length + label.length) =
      isValidLabel label := by
  obtain ⟨first, middle, last, rfl⟩ := exists_ends long
  have inner : 1 ≤ middle.length := by
    rw [List.length_cons, List.length_append] at long
    simpa using long
  have check := checkLabel_append before after middle first last
  rw [isValidLabel_ends, decide_eq_true inner, Bool.true_and, ← check]
  simp

theorem isValidLabel_short {label : List Nat} (short : label.length < 3) :
    isValidLabel label = false := by
  cases label with
  | nil => rfl
  | cons first rest =>
    unfold isValidLabel
    rw [decide_eq_false (Nat.not_le.mpr short)]
    rfl

/-! ### All labels -/

section Labels

variable {before label : List Nat} (plain : 46 ∉ label)

include plain

theorem beq_dot_plain (byte : Nat) (member : byte ∈ label) : (byte == 46) = false :=
  beq_false_of_ne fun dot => plain (dot ▸ member)

theorem findIdx?_plain : label.findIdx? (· = 46) = none :=
  List.findIdx?_eq_none_iff.mpr (beq_dot_plain plain)

theorem splitOn_plain : label.splitOn 46 = [label] :=
  List.splitOnP_eq_singleton (beq_dot_plain plain)

theorem splitOn_dot (others : List Nat) :
    (label ++ 46 :: others).splitOn 46 = label :: others.splitOn 46 :=
  List.splitOnP_append_cons_of_forall_mem (beq_dot_plain plain) 46 rfl others

/-- A label without a dot behind it ends with the name. -/
theorem labelEnd_plain :
    labelEnd (before ++ label) before.length = before.length + label.length := by
  unfold labelEnd
  rw [List.drop_left, findIdx?_plain plain, ← List.length_append]
  rfl

theorem labelEnd_dot (others : List Nat) :
    labelEnd (before ++ (label ++ 46 :: others)) before.length = before.length + label.length := by
  unfold labelEnd
  rw [List.drop_left, List.findIdx?_append, findIdx?_plain plain, List.findIdx?_cons]
  simp

end Labels

/-- The loop goes over the pieces between the dots. -/
theorem scanLabels_append (before rest : List Nat) :
    scanLabels (before ++ rest) before.length = (rest.splitOn 46).all isValidLabel := by
  induction count : rest.length using Nat.strong_induction_on generalizing before rest with
  | _ count inductionHypothesis =>
    by_cases dotted : 46 ∈ rest
    · obtain ⟨label, others, rfl, plain⟩ := List.eq_append_cons_of_mem dotted
      rw [splitOn_dot plain, List.all_cons, scanLabels, labelEnd_dot plain, Nat.add_sub_cancel_left]
      split
      · next short => rw [isValidLabel_short short, Bool.false_and]
      · next long =>
        rw [checkLabel_eq (Nat.le_of_not_lt long)]
        split
        · next invalid => rw [invalid, Bool.false_and]
        · next valid =>
          have further := inductionHypothesis others.length (by simp [← count]; omega)
            (before ++ (label ++ [46])) others rfl
          rw [Bool.not_eq_false] at valid
          rw [if_neg (by simp), valid, Bool.true_and, ← further]
          simp [Nat.add_assoc]
    · rw [splitOn_plain dotted, List.all_cons, List.all_nil, Bool.and_true, scanLabels,
        labelEnd_plain dotted, Nat.add_sub_cancel_left, List.length_append]
      split
      · next short => exact (isValidLabel_short short).symm
      · next long =>
        have check := @checkLabel_eq before rest [] (Nat.le_of_not_lt long)
        rw [List.append_nil] at check
        rw [check, if_pos rfl]
        split
        · next invalid => exact invalid.symm
        · next valid => exact (Bool.not_eq_false _ ▸ valid).symm

/-- The loop accepts what the split at the dots does. -/
theorem scanAccountName_eq (name : List Nat) : scanAccountName name = isValidAccountName name := by
  unfold scanAccountName isValidAccountName
  rw [show scanLabels name 0 = _ from scanLabels_append [] name]
  split
  · next short => rw [decide_eq_false (Nat.not_le.mpr short), Bool.false_and, Bool.false_and]
  · next long =>
    rw [decide_eq_true (Nat.le_of_not_lt long), Bool.true_and]
    split
    · next tooLong => rw [decide_eq_false (Nat.not_le.mpr tooLong), Bool.false_and]
    · next fits => rw [decide_eq_true (Nat.le_of_not_lt fits), Bool.true_and]

/-! ### The names of accounts -/

/-- A label of a name: three characters or more, of which the first is a letter, the last a letter
or a digit, and all are letters, digits or hyphens. -/
structure IsLabel (label : List Nat) : Prop where
  long : 3 ≤ label.length
  starts : ∃ first ∈ label.head?, isLowerCase first
  ends : ∃ last ∈ label.getLast?, isLowerCase last ∨ isDigit last
  made : ∀ byte ∈ label, isLowerCase byte ∨ isDigit byte ∨ byte = 45

theorem isValidLabel_iff {label : List Nat} : isValidLabel label = true ↔ IsLabel label := by
  by_cases long : 3 ≤ label.length
  · obtain ⟨first, middle, last, rfl⟩ := exists_ends long
    have inner : 1 ≤ middle.length := by
      rw [List.length_cons, List.length_append] at long
      simpa using long
    have final : (first :: middle ++ [last]).getLast? = some last := List.getLast?_concat
    rw [isValidLabel_ends, decide_eq_true inner, Bool.true_and, Bool.and_eq_true, Bool.and_eq_true,
      Bool.or_eq_true, List.all_eq_true]
    constructor
    · rintro ⟨⟨starts, ends⟩, made⟩
      refine ⟨long, ⟨first, rfl, starts⟩, ⟨last, final, ends⟩, fun byte member => ?_⟩
      rcases List.mem_cons.mp member with rfl | member
      · exact .inl starts
      · rcases List.mem_append.mp member with member | isLast
        · simpa [isInner, or_assoc] using made byte member
        · obtain rfl := List.mem_singleton.mp isLast
          exact ends.imp_right .inl
    · rintro ⟨_, ⟨_, isFirst, starts⟩, ⟨_, isLast, ends⟩, made⟩
      obtain rfl := Option.some.inj isFirst
      obtain rfl := Option.some.inj (final.symm.trans isLast)
      refine ⟨⟨starts, ends⟩, fun byte member => ?_⟩
      simpa [isInner, or_assoc] using made byte (.tail _ (List.mem_append_left _ member))
  · rw [isValidLabel_short (Nat.lt_of_not_le long)]
    exact ⟨nofun, fun label => absurd label.long long⟩

theorem IsLabel.plain {label : List Nat} (isLabel : IsLabel label) : 46 ∉ label := by
  intro dot
  have := isLabel.made 46 dot
  revert this
  decide

/-- The names that the code accepts are those of three to sixteen characters that are labels joined
by dots. -/
theorem scanAccountName_iff (name : List Nat) : scanAccountName name = true ↔
    3 ≤ name.length ∧ name.length ≤ 16 ∧
      ∃ labels, name = [46].intercalate labels ∧ ∀ label ∈ labels, IsLabel label := by
  rw [scanAccountName_eq]
  unfold isValidAccountName
  rw [Bool.and_eq_true, Bool.and_eq_true, decide_eq_true_eq, decide_eq_true_eq, and_assoc,
    List.all_eq_true]
  refine and_congr_right fun long => and_congr_right fun _ => ⟨fun valid => ?_, ?_⟩
  · exact ⟨name.splitOn 46, (List.intercalate_splitOn 46).symm, fun label member =>
      isValidLabel_iff.mp (valid label member)⟩
  · rintro ⟨labels, rfl, made⟩ label member
    have some : labels ≠ [] := by
      rintro rfl
      exact absurd long (by decide)
    rw [List.splitOn_intercalate 46 (fun label member => (made label member).plain) some] at member
    exact isValidLabel_iff.mpr (made label member)

end Zattera
