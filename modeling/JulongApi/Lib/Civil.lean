/-
Months of the Gregorian calendar.

Days are counted from the first of January 1970, and months from January of the year 0, so the next
month is one more in every case.  `monthStart` is the first day of a month and `monthOf` the month
that a day is in; both go on for ever in both directions.
-/
import Mathlib

namespace Civil

def isLeap (y : Int) : Bool := y % 4 = 0 && (y % 100 ≠ 0 || y % 400 = 0)

def yearStart (y : Int) : Int :=
  365 * (y - 1970) + ((y - 1) / 4 - (y - 1) / 100 + (y - 1) / 400) - 477

/-- The days of a year before its months, the last of which is January of the next. -/
def daysBefore (leap : Bool) (month : Nat) : Nat :=
  [0, 31, 59, 90, 120, 151, 181, 212, 243, 273, 304, 334, 365].getD month 365 +
    (if leap && decide (2 ≤ month) then 1 else 0)

/-- The year a day is in: near the mean, and then by a look at where the year begins. -/
def yearOf (d : Int) : Int :=
  let y := 1970 + 400 * d / 146097
  if d < yearStart y then y - 1 else if yearStart (y + 1) ≤ d then y + 1 else y

def monthIn (leap : Bool) (d : Nat) : Nat :=
  ((List.range 11).filter fun month => decide (daysBefore leap (month + 1) ≤ d)).length

def monthStart (k : Int) : Int :=
  yearStart (k / 12) + daysBefore (isLeap (k / 12)) (k % 12).toNat

def monthOf (d : Int) : Int :=
  let y := yearOf d
  12 * y + monthIn (isLeap y) (d - yearStart y).toNat

/-- The same day of the next month, or as many days after the end of that as it is short. -/
def addMonth (d : Int) : Int := monthStart (monthOf d + 1) + (d - monthStart (monthOf d))

/-! ### Years -/

theorem yearStart_succ (y : Int) :
    yearStart (y + 1) = yearStart y + daysBefore (isLeap y) 12 := by
  have hlength : (daysBefore (isLeap y) 12 : Int) = if isLeap y then 366 else 365 := by
    cases isLeap y <;> rfl
  have hleap : isLeap y = true ↔ y % 4 = 0 ∧ (y % 100 ≠ 0 ∨ y % 400 = 0) := by
    simp [isLeap]
  rw [hlength]
  unfold yearStart
  by_cases h : isLeap y = true
  · rw [if_pos h]
    have hdiv := hleap.mp h
    omega
  · rw [if_neg h]
    have hdiv : ¬(y % 4 = 0 ∧ (y % 100 ≠ 0 ∨ y % 400 = 0)) := fun hh => h (hleap.mpr hh)
    omega

theorem yearOf_spec (d : Int) : yearStart (yearOf d) ≤ d ∧ d < yearStart (yearOf d + 1) := by
  unfold yearOf
  dsimp only
  split
  · rename_i h
    refine ⟨?_, by simpa using h⟩
    unfold yearStart at h ⊢
    omega
  · rename_i h
    split
    · rename_i h'
      refine ⟨h', ?_⟩
      unfold yearStart at h' ⊢
      omega
    · next h' => exact ⟨by omega, by omega⟩

/-! ### Months -/

theorem monthIn_spec : ∀ (leap : Bool) (d : Nat), d < daysBefore leap 12 →
    monthIn leap d < 12 ∧ daysBefore leap (monthIn leap d) ≤ d ∧
      d < daysBefore leap (monthIn leap d + 1) := by
  decide +kernel

theorem daysBefore_succ : ∀ (leap : Bool) (month : Nat), month < 12 →
    daysBefore leap month + 28 ≤ daysBefore leap (month + 1) ∧
      daysBefore leap (month + 1) ≤ daysBefore leap month + 31 := by
  decide +kernel

theorem monthStart_eq (y : Int) {month : Nat} (h : month ≤ 12) :
    monthStart (12 * y + month) = yearStart y + daysBefore (isLeap y) month := by
  unfold monthStart
  by_cases hlast : month = 12
  · subst hlast
    have hdiv : (12 * y + (12 : Nat)) / 12 = y + 1 := by omega
    have hmod : (12 * y + (12 : Nat)) % 12 = 0 := by omega
    rw [hdiv, hmod, yearStart_succ]
    show _ + ((daysBefore _ 0 : Nat) : Int) = _
    have hzero : daysBefore (isLeap (y + 1)) 0 = 0 := by cases isLeap (y + 1) <;> rfl
    rw [hzero]
    simp
  · have hdiv : (12 * y + (month : Int)) / 12 = y := by omega
    have hmod : ((12 * y + (month : Int)) % 12).toNat = month := by omega
    rw [hdiv, hmod]

theorem monthStart_succ (k : Int) :
    monthStart k + 28 ≤ monthStart (k + 1) ∧ monthStart (k + 1) ≤ monthStart k + 31 := by
  obtain ⟨y, month, hmonth, rfl⟩ : ∃ (y : Int) (month : Nat), month < 12 ∧ 12 * y + month = k :=
    ⟨k / 12, (k % 12).toNat, by omega, by omega⟩
  have hsucc : 12 * y + (month : Int) + 1 = 12 * y + ((month + 1 : Nat) : Int) := by
    push_cast
    ring
  have hnext : month + 1 ≤ 12 := hmonth
  rw [hsucc, monthStart_eq y hmonth.le, monthStart_eq y hnext]
  have hdays := daysBefore_succ (isLeap y) month hmonth
  omega

theorem monthStart_strictMono : StrictMono monthStart :=
  strictMono_int_of_lt_succ fun k => by
    have hsucc := monthStart_succ k
    omega

theorem monthOf_spec (d : Int) :
    monthStart (monthOf d) ≤ d ∧ d < monthStart (monthOf d + 1) := by
  unfold monthOf
  dsimp only
  obtain ⟨hstart, hstop⟩ := yearOf_spec d
  generalize yearOf d = y at hstart hstop ⊢
  rw [yearStart_succ] at hstop
  have hlt : (d - yearStart y).toNat < daysBefore (isLeap y) 12 := by omega
  obtain ⟨hmonth, hle, hnext⟩ := monthIn_spec (isLeap y) _ hlt
  have hsucc : 12 * y + (monthIn (isLeap y) (d - yearStart y).toNat : Int) + 1 =
      12 * y + ((monthIn (isLeap y) (d - yearStart y).toNat + 1 : Nat) : Int) := by
    push_cast
    ring
  have hnext' : monthIn (isLeap y) (d - yearStart y).toNat + 1 ≤ 12 := hmonth
  rw [hsucc, monthStart_eq y hmonth.le, monthStart_eq y hnext']
  omega

theorem monthOf_eq {d k : Int} (h : monthStart k ≤ d) (h' : d < monthStart (k + 1)) :
    monthOf d = k := by
  obtain ⟨hle, hlt⟩ := monthOf_spec d
  have hmono : ∀ a b, monthStart a < monthStart b → a < b :=
    fun a b hab => monthStart_strictMono.lt_iff_lt.mp hab
  have hupper := hmono (monthOf d) (k + 1) (by omega)
  have hlower := hmono k (monthOf d + 1) (by omega)
  omega

theorem addMonth_eq {k n : Int} (h : 0 ≤ n) (h' : n < 28) :
    addMonth (monthStart k + n) = monthStart (k + 1) + n := by
  have hsucc := monthStart_succ k
  have hmonth : monthOf (monthStart k + n) = k := monthOf_eq (by omega) (by omega)
  rw [addMonth, hmonth]
  omega

example : addMonth (monthStart (12 * 2026 + 0) + 30) = monthStart (12 * 2026 + 2) + 2 := by
  decide +kernel

end Civil
