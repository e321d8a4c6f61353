/-
This file models the loop of `is_valid_account_name`, which goes over a name label
by label, with an index for where a label begins and one for where it ends.
-/

import Zattera.Protocol.Types

namespace Zattera

/-- `find_first_of( '.', begin )`, or the end of the name where there is none -/
def labelEnd (name : List Nat) (begin : Nat) : Nat :=
  (((name.drop begin).findIdx? (· = 46)).map (begin + ·)).getD name.length

theorem labelEnd_le (name : List Nat) (begin : Nat) : labelEnd name begin ≤ name.length := by
  unfold labelEnd
  cases found : (name.drop begin).findIdx? (· = 46) with
  | none => exact Nat.le_refl _
  | some place =>
    have inside := (List.findIdx?_eq_some_iff_getElem.mp found).1
    rw [List.length_drop] at inside
    change begin + place ≤ name.length
    omega

/-- What the loop asks of a label from `begin` to before `stop`: its first character, its last, and
those between. -/
def checkLabel (name : List Nat) (begin stop : Nat) : Bool :=
  isLowerCase (name.getD begin 0) &&
    (isLowerCase (name.getD (stop - 1) 0) || isDigit (name.getD (stop - 1) 0)) &&
    (List.range' (begin + 1) (stop - 1 - (begin + 1))).all fun i =>
      isLowerCase (name.getD i 0) || isDigit (name.getD i 0) || decide (name.getD i 0 = 45)

/-- The loop over the labels from `begin` on. -/
def scanLabels (name : List Nat) (begin : Nat) : Bool :=
  let stop := labelEnd name begin
  if stop - begin < 3 then false
  else if checkLabel name begin stop = false then false
  else if stop = name.length then true
  else scanLabels name (stop + 1)
termination_by name.length - begin
decreasing_by
  have inside := labelEnd_le name begin
  omega

/-- `is_valid_account_name`, as the code goes over the name -/
def scanAccountName (name : List Nat) : Bool :=
  if name.length < 3 then false
  else if 16 < name.length then false
  else scanLabels name 0

end Zattera
