/-
This file proves that the check digit of a numeric asset identifier finds every
change of a digit and every swap of neighbours. The unrolled checksum is a run of an
automaton over the digits, whose table is a quasigroup that tells digits from the
same digits the other way round.
-/

import Zattera.Lib.CheckDigit
import Zattera.Protocol.Nai

namespace Zattera

open Program CheckDigit

/-- The step that the table stands for. -/
def dammStep (state digit : Fin 10) : Fin 10 :=
  Fin.ofNat 10 (dammTable.getD (10 * state + digit) 0 / 10)

theorem dammTable_getD : ∀ state digit : Fin 10,
    dammTable.getD (10 * state + digit) 0 = 10 * dammStep state digit := by
  decide +kernel

theorem dammStep_columns (digit : Fin 10) : Function.Injective (dammStep · digit) := by
  revert digit
  unfold Function.Injective
  decide +kernel

theorem dammStep_rows (state : Fin 10) : Function.Injective (dammStep state) := by
  revert state
  unfold Function.Injective
  decide +kernel

theorem dammStep_ordered : ∀ state first second : Fin 10, dammStep (dammStep state first) second =
    dammStep (dammStep state second) first → first = second := by
  decide +kernel

/-- The digit that leads back to zero is the state itself. -/
theorem dammStep_self : ∀ state : Fin 10, dammStep state state = 0 := by decide +kernel

/-- The number with some decimal digits. -/
def decimal (digits : List (Fin 10)) : Nat :=
  digits.foldl (fun number (digit : Fin 10) => 10 * number + digit.val) 0

theorem decimal_concat (digits : List (Fin 10)) (last : Fin 10) :
    decimal (digits ++ [last]) = 10 * decimal digits + last := by
  rw [decimal, List.foldl_concat]
  rfl

theorem div_ten (number : Nat) (digit : Fin 10) : (10 * number + digit) / 10 = number := by omega

theorem mod_ten (number : Nat) (digit : Fin 10) : (10 * number + digit) % 10 = digit := by omega

/-- The checksum of eight digits is where the automaton ends. -/
theorem dammChecksum8digit_decimal {digits : List (Fin 10)} (eight : digits.length = 8) :
    dammChecksum8digit (decimal digits) = .ok (digits.foldl dammStep 0).val := by
  match digits with
  | [a, b, c, d, e, f, g, h] =>
    have small : decimal [a, b, c, d, e, f, g, h] < 100000000 := by
      simp only [decimal, List.foldl_cons, List.foldl_nil]
      omega
    have first : dammTable.getD a 0 = 10 * dammStep 0 a := by
      have first := dammTable_getD 0 a
      rwa [show 10 * ((0 : Fin 10) : Nat) + a = a from Nat.zero_add _] at first
    refine except_bind_eq_ok.mpr ⟨(), ensure_eq_ok.mpr small, congrArg Except.ok ?_⟩
    simp only [decimal, List.foldl_cons, List.foldl_nil, div_ten, mod_ten, Nat.mul_zero,
      Nat.zero_add]
    rw [first, dammTable_getD, dammTable_getD, dammTable_getD, dammTable_getD, dammTable_getD,
      dammTable_getD, dammTable_getD]
    exact Nat.mul_div_cancel_left _ (by decide)

/-- Nine digits are accepted by the check if the automaton ends where it began. -/
theorem checked_iff {digits : List (Fin 10)} (nine : digits.length = 9) :
    dammChecksum8digit (decimal digits / 10) = .ok (decimal digits % 10) ↔
      digits.foldl dammStep 0 = 0 := by
  rcases List.eq_nil_or_concat digits with rfl | ⟨data, last, rfl⟩
  · cases nine
  have eight : data.length = 8 := by simpa using nine
  rw [List.concat_eq_append, decimal_concat, div_ten, mod_ten, dammChecksum8digit_decimal eight, List.foldl_concat,
    Except.ok.injEq, ← Fin.ext_iff]
  constructor
  · intro same
    rw [same, dammStep_self]
  · intro ends
    exact (dammStep_rows _ (ends.trans (dammStep_self _).symm)).symm

/-- A number with its check digit is rejected once a digit is changed or two neighbours are
swapped. -/
theorem assetNumFromNai_of_mistake {digits written : List (Fin 10)} (nine : digits.length = 9)
    (checked : dammChecksum8digit (decimal digits / 10) = .ok (decimal digits % 10))
    (mistake : Mistake digits written) (decimalPlaces : Nat) :
    ∃ error, assetNumFromNai (decimal written) decimalPlaces = .error error := by
  cases result : assetNumFromNai (decimal written) decimalPlaces with
  | error error => exact ⟨error, rfl⟩
  | ok number =>
    obtain ⟨_, _, result⟩ := except_bind_eq_ok.mp result
    obtain ⟨checksum, computed, result⟩ := except_bind_eq_ok.mp result
    obtain ⟨_, agrees, _⟩ := except_bind_eq_ok.mp result
    rw [← ensure_eq_ok.mp agrees] at computed
    have ends := (checked_iff (mistake.length_eq.trans nine)).mp computed
    have ended := (checked_iff nine).mp checked
    exact absurd (ends.trans ended.symm)
      (foldl_ne_of_mistake dammStep_columns dammStep_rows dammStep_ordered mistake 0)

/-- The identifier of the liquid token is 21. -/
theorem assetNumFromNai_of_mistake_liquid :
    ∃ error, assetNumFromNai 201 3 = .error error :=
  @assetNumFromNai_of_mistake [0, 0, 0, 0, 0, 0, 0, 2, 1] [0, 0, 0, 0, 0, 0, 2, 0, 1] rfl (by decide)
    (.swapped [0, 0, 0, 0, 0, 0] [1] (by decide)) 3

end Zattera
