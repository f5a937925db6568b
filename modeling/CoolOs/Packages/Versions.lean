import CoolOs.Trust.Keys
import Mathlib.Tactic.IntervalCases

namespace CoolOs.Packages

open Text Trust List Option

/-!
# Versions of packages

`version_rank` makes one number of the first four components of a version, each of them
clamped to three digits.  Versions are ordered by it as long as this loses nothing.
-/

/-- The loops over the components, with the number of those that are still taken. -/
def rankFrom : Nat -> List Text -> Nat -> Nat
  | 0, _, rank => rank
  | left + 1, [], rank => rankFrom left [] (min (rank * 1000) maxU64)
  | left + 1, part :: rest, rank =>
    rankFrom left rest (min (min (rank * 1000) maxU64 + min ((parseU64 part).getD 0) 999) maxU64)

def versionRank (version : Text) : Nat := rankFrom 4 (version.splitOn '.') 0

/-- An installed version comes from a manifest or an owner record. -/
def checkPackageDowngrade (existing : Option Text) (version : Text) : Except String Unit :=
  match existing with
  | none => .ok ()
  | some existing =>
    if versionRank version < versionRank existing then .error "package downgrade refused"
    else .ok ()

def appendDigit (value : Nat) (char : Char) : Option Nat :=
  if '0' <= char ∧ char <= '9' then some (value * 10 + (char.toNat - '0'.toNat)) else none

/-- The number that decimal digits spell, and zero for other text. -/
def number (part : Text) : Nat := (part.foldlM appendDigit 0).getD 0

/-- The components, with zeros for missing ones. -/
def components (version : Text) (place : Nat) : Nat :=
  ((version.splitOn '.')[place]?.map number).getD 0

/-- The order that the first difference decides. -/
def Precedes (version other : Nat -> Nat) : Prop :=
  Exists fun place => (∀ earlier < place, version earlier = other earlier) ∧
    version place < other place

/-- What `version_rank` keeps of the components. -/
def clamped (version : Nat -> Nat) (place : Nat) : Nat :=
  if place < 4 then min (version place) 999 else 0

theorem parseDigits_saturates (value : Nat) (part : Text) :
    parseU64Digits (min value maxU64) part =
      (part.foldlM appendDigit value).map (fun total => min total maxU64) := by
  induction part generalizing value with
  | nil => rfl
  | cons char rest ih =>
    rw [parseU64Digits, foldlM_cons, appendDigit]
    split
    · rw [bind_eq_bind, bind_some, <- ih]
      congr 1
      omega
    · rfl

theorem parseU64_clamped (part : Text) :
    min ((parseU64 part).getD 0) 999 = min (number part) 999 := by
  cases part with
  | nil => rfl
  | cons char rest =>
    have saturates := parseDigits_saturates 0 (char :: rest)
    rw [Nat.zero_min] at saturates
    rw [parseU64, isEmpty_cons, if_neg Bool.false_ne_true, saturates, number]
    cases (char :: rest).foldlM appendDigit 0 with
    | none => rfl
    | some total =>
      simp only [map_some, getD_some, maxU64]
      omega

/-- A rank of three components is far from the limit of the word. -/
theorem rankFrom_succ (left : Nat) (parts : List Text) {rank : Nat} (small : rank < 10 ^ 9) :
    rankFrom (left + 1) parts rank =
      rankFrom left parts.tail (rank * 1000 + min ((parts[0]?.map number).getD 0) 999) := by
  have room {value : Nat} (few : value <= 10 ^ 12) : min value maxU64 = value :=
    Nat.min_eq_left (few.trans (by decide))
  cases parts with
  | nil =>
    rw [rankFrom, room (by omega)]
    simp
  | cons part rest =>
    rw [rankFrom, parseU64_clamped, room (by omega), room (by omega)]
    rfl

theorem versionRank_eq (version : Text) : versionRank version =
    ((clamped (components version) 0 * 1000 + clamped (components version) 1) * 1000 +
      clamped (components version) 2) * 1000 + clamped (components version) 3 := by
  rw [versionRank, rankFrom_succ _ _ (by decide), rankFrom_succ _ _ (by omega),
    rankFrom_succ _ _ (by omega), rankFrom_succ _ _ (by omega), rankFrom]
  simp [clamped, components]

theorem versionRank_lt_iff (version other : Text) : versionRank version < versionRank other <->
    Precedes (clamped (components version)) (clamped (components other)) := by
  have small (version : Text) (place : Nat) : clamped (components version) place < 1000 ∧
      (4 <= place -> clamped (components version) place = 0) := by
    unfold clamped
    split <;> omega
  have bounds (place : Nat) := And.intro (small version place) (small other place)
  rw [versionRank_eq, versionRank_eq]
  generalize clamped (components version) = left, clamped (components other) = right at bounds
  have first := bounds 0
  have second := bounds 1
  have third := bounds 2
  have fourth := bounds 3
  constructor
  · intro less
    have decided : left 0 < right 0 ∨ left 0 = right 0 ∧ (left 1 < right 1 ∨ left 1 = right 1 ∧
        (left 2 < right 2 ∨ left 2 = right 2 ∧ left 3 < right 3)) := by omega
    rcases decided with here | ⟨same₀, here | ⟨same₁, here | ⟨same₂, here⟩⟩⟩
    · exact ⟨0, nofun, here⟩
    · exact ⟨1, fun earlier before => by interval_cases earlier; exact same₀, here⟩
    · exact ⟨2, fun earlier before => by interval_cases earlier <;> assumption, here⟩
    · exact ⟨3, fun earlier before => by interval_cases earlier <;> assumption, here⟩
  · rintro ⟨place, same, less⟩
    have inside : place < 4 := by
      have beyond := bounds place
      omega
    have same₀ := same 0
    have same₁ := same 1
    have same₂ := same 2
    interval_cases place <;> omega

theorem checkPackageDowngrade_iff (existing version : Text) :
    checkPackageDowngrade (some existing) version = .error "package downgrade refused" <->
      Precedes (clamped (components version)) (clamped (components existing)) := by
  rw [<- versionRank_lt_iff, checkPackageDowngrade]
  split
  · next less => exact iff_of_true rfl less
  · next other => exact iff_of_false nofun other

/-- At most four components, none of them with more than three digits. -/
def Short (version : Text) : Prop :=
  forall place, components version place <= 999 ∧ (4 <= place -> components version place = 0)

/-- For such versions downgrades and only these are refused. -/
theorem short_downgrade_refused_iff {existing version : Text} (old : Short existing)
    (new : Short version) :
    checkPackageDowngrade (some existing) version = .error "package downgrade refused" <->
      Precedes (components version) (components existing) := by
  have whole {version : Text} (short : Short version) :
      clamped (components version) = components version := by
    funext place
    have bound := short place
    unfold clamped
    split <;> omega
  rw [checkPackageDowngrade_iff, whole old, whole new]

end CoolOs.Packages
