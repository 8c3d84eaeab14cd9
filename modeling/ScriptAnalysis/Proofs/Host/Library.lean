import Mathlib.Data.List.Induction
import ScriptAnalysis.Proofs.Path.Extension
import ScriptAnalysis.ScriptKind

/-!
# Default libraries

The default library lies directly in the toolchain's directory. Which file it is, `Selects` says: the
target may name a year from 2016 on, which may be spelled with a plus sign and zeros in front
(`readYear_eq_some_iff`), and then the name of the file repeats that spelling. So the file is one of
the toolchain's libraries exactly if no year is spelled in this way (`path_outcome`).
-/

namespace ScriptAnalysis.DefaultLibrary

variable {year value : Nat} {digits : List Char}

/-! ### Spellings of years -/

theorem digitChar_of_isDigit {c : Char} (isDigit : c.isDigit = true) :
    c.toNat - 48 < 10 ∧ (c.toNat - 48).digitChar = c := by
  have bounds : 48 ≤ c.toNat ∧ c.toNat ≤ 57 := by
    simpa [Char.isDigit, UInt32.le_iff_toNat_le] using isDigit
  have small : c.toNat - 48 < 10 := by omega
  refine ⟨small, Char.toNat_inj.mp ?_⟩
  rw [Nat.toNat_digitChar_of_lt_ten small]
  omega

/-- The value of a run of digits. -/
def digitsValue? (digits : List Char) : Option Nat :=
  if digits.isEmpty || !digits.all Char.isDigit then none else some (Nat.ofDigitChars 10 digits 0)

/-- Zeros, and behind them the digits of a number. -/
def padded (zeros value : Nat) : List Char :=
  List.replicate zeros '0' ++ Nat.toDigits 10 value

theorem isDigit_of_mem_padded {zeros : Nat} {c : Char} (member : c ∈ padded zeros value) :
    c.isDigit = true := by
  rcases List.mem_append.mp member with zero | digit
  · rw [List.eq_of_mem_replicate zero]
    decide
  · exact Nat.isDigit_of_mem_toDigits (by decide) (by decide) digit

theorem digitsValue?_padded (zeros value : Nat) : digitsValue? (padded zeros value) = some value := by
  have written : padded zeros value ≠ [] :=
    List.append_ne_nil_of_right_ne_nil _ (List.ne_nil_of_length_pos Nat.length_toDigits_pos)
  have all : (padded zeros value).all Char.isDigit = true :=
    List.all_eq_true.mpr fun c member => isDigit_of_mem_padded member
  have same : Nat.ofDigitChars 10 (padded zeros value) 0 = value := by
    simp [padded, Nat.ofDigitChars_append]
  rw [digitsValue?, all, List.isEmpty_eq_false_iff.mpr written, same]
  rfl

/-- One more digit behind makes the digits of ten times the number and the digit. -/
theorem exists_padded_concat (zeros value : Nat) {c : Char} (isDigit : c.isDigit = true) :
    ∃ more, padded zeros value ++ [c] = padded more (10 * value + (c.toNat - 48)) := by
  obtain ⟨small, same⟩ := digitChar_of_isDigit isDigit
  have last : Nat.toDigits 10 (c.toNat - 48) = [c] := by
    rw [Nat.toDigits_of_lt_base small, same]
  rcases Nat.eq_zero_or_pos value with rfl | positive
  · -- The digit of the number itself becomes one more of the zeros.
    refine ⟨zeros + 1, ?_⟩
    rw [Nat.mul_zero, Nat.zero_add, padded, padded, last, List.replicate_succ']
    rfl
  · refine ⟨zeros, ?_⟩
    rw [padded, padded, ← Nat.toDigits_append_toDigits (by decide) positive small, last,
      List.append_assoc]

/-- Every run of digits is some zeros and the digits of its value. -/
theorem exists_padded (written : digits ≠ []) (all : ∀ c ∈ digits, c.isDigit = true) :
    ∃ zeros, digits = padded zeros (Nat.ofDigitChars 10 digits 0) := by
  induction digits using List.reverseRecOn with
  | nil => exact absurd rfl written
  | append_singleton before c inductionHypothesis =>
      have isDigit := all c (by simp)
      have value : Nat.ofDigitChars 10 (before ++ [c]) 0 =
          10 * Nat.ofDigitChars 10 before 0 + (c.toNat - 48) := Nat.ofDigitChars_append 0
      rw [value]
      by_cases first : before = []
      · obtain ⟨small, same⟩ := digitChar_of_isDigit isDigit
        refine ⟨0, ?_⟩
        rw [first, List.nil_append, Nat.ofDigitChars_nil, Nat.mul_zero, Nat.zero_add, padded,
          Nat.toDigits_of_lt_base small, same]
        rfl
      · obtain ⟨zeros, shape⟩ := inductionHypothesis first fun d member => all d (by simp [member])
        generalize Nat.ofDigitChars 10 before 0 = earlier at shape ⊢
        rw [shape]
        exact exists_padded_concat zeros earlier isDigit

theorem digitsValue?_eq_some_iff :
    digitsValue? digits = some value ↔ ∃ zeros, digits = padded zeros value := by
  constructor
  · intro read
    rw [digitsValue?] at read
    split at read
    · cases read
    · next valid =>
        cases read
        obtain ⟨written, all⟩ : digits ≠ [] ∧ ∀ c ∈ digits, c.isDigit = true := by
          simpa using valid
        exact exists_padded written all
  · rintro ⟨zeros, rfl⟩
    exact digitsValue?_padded zeros value

theorem foldl_eq_ofDigitChars (digits : List Char) (start : Nat) :
    digits.foldl (fun value c => value * 10 + (c.toNat - 48)) start =
      Nat.ofDigitChars 10 digits start := by
  simp only [Nat.ofDigitChars_eq_foldl, Nat.mul_comm 10]
  rfl

theorem readYear_plus (digits : List Char) : readYear ('+' :: digits) = digitsValue? digits := by
  rw [digitsValue?, ← foldl_eq_ofDigitChars]
  rfl

theorem readYear_unsigned (unsigned : digits.head? ≠ some '+') :
    readYear digits = digitsValue? digits := by
  rw [digitsValue?, ← foldl_eq_ofDigitChars]
  unfold readYear
  split
  · exact absurd rfl unsigned
  · rfl

/-- The characters spell a year: its digits behind any number of zeros, with or without a plus sign
in front. -/
def Spells (year : Nat) (chars : List Char) : Prop :=
  ∃ zeros, chars = padded zeros year ∨ chars = '+' :: padded zeros year

/-- What is read as a year is its spellings. -/
theorem readYear_eq_some_iff {chars : List Char} :
    readYear chars = some year ↔ Spells year chars := by
  rw [Spells, exists_or]
  by_cases signed : ∃ digits, chars = '+' :: digits
  · obtain ⟨digits, rfl⟩ := signed
    have unlike : ¬ ∃ zeros, '+' :: digits = padded zeros year := by
      rintro ⟨zeros, shape⟩
      have digit := isDigit_of_mem_padded (shape ▸ List.mem_cons_self)
      revert digit
      decide
    simp only [readYear_plus, digitsValue?_eq_some_iff, unlike, List.cons.injEq, true_and, false_or]
  · have unsigned : chars.head? ≠ some '+' := fun starts =>
      signed (List.head?_eq_some_iff.mp starts)
    have unlike : ¬ ∃ zeros, chars = '+' :: padded zeros year :=
      fun ⟨zeros, shape⟩ => signed ⟨_, shape⟩
    simp only [readYear_unsigned unsigned, digitsValue?_eq_some_iff, unlike, or_false]

theorem Spells.unique {chars : List Char} {other : Nat} (spells : Spells year chars)
    (also : Spells other chars) : year = other :=
  Option.some.inj ((readYear_eq_some_iff.mpr spells).symm.trans (readYear_eq_some_iff.mpr also))

/-- A year is spelled by its digits alone. -/
theorem spells_toString (year : Nat) : Spells year (toString year).toList :=
  ⟨0, .inl Nat.toList_repr⟩

/-- Only digits and plus signs occur in spellings. -/
theorem Spells.ordinary {chars : List Char} (spells : Spells year chars) :
    ∀ c ∈ chars, c = '+' ∨ c.isDigit = true := by
  obtain ⟨zeros, rfl | rfl⟩ := spells
  · exact fun c member => .inr (isDigit_of_mem_padded member)
  · exact fun c member => (List.mem_cons.mp member).imp_right isDigit_of_mem_padded

/-! ### The library for a target -/

/-- The year has a library of its own. -/
def HasLibrary (year : Nat) : Prop :=
  2016 ≤ year ∧ year ≤ 65535

instance (year : Nat) : Decidable (HasLibrary year) :=
  inferInstanceAs (Decidable (_ ∧ _))

/-- The file of a year's library, by a spelling of the year. -/
def yearFile (spelling : String) : String :=
  "lib.es" ++ spelling ++ ".full.d.ts"

/-- The file belongs to the toolchain. -/
def IsLibrary (file : String) : Prop :=
  file = "lib.d.ts" ∨ file = "lib.es6.d.ts" ∨ file = "lib.esnext.full.d.ts" ∨
    ∃ year, HasLibrary year ∧ file = yearFile (toString year)

/-- The target names a year that has a library, but the year has a plus sign or zeros in front. -/
def IsPadded (target : String) : Prop :=
  ∃ spelling year, target = "es" ++ spelling ∧ Spells year spelling.toList ∧ HasLibrary year ∧
    spelling ≠ toString year

/-- The file for a target in small letters. -/
inductive Selects : String → String → Prop where
  | es6 {target : String} (named : target = "es6" ∨ target = "es2015") :
      Selects target "lib.es6.d.ts"
  | next : Selects "esnext" "lib.esnext.full.d.ts"
  | year {spelling : String} {year : Nat} (spells : Spells year spelling.toList)
      (has : HasLibrary year) : Selects ("es" ++ spelling) (yearFile spelling)
  | standard {target : String} (sixth : target ≠ "es6" ∧ target ≠ "es2015")
      (next : target ≠ "esnext")
      (years : ∀ spelling year, target = "es" ++ spelling → Spells year spelling.toList →
        ¬ HasLibrary year) :
      Selects target "lib.d.ts"

theorem toList_es (spelling : String) :
    ("es" ++ spelling).toList = 'e' :: 's' :: spelling.toList := by
  rw [String.toList_append]
  rfl

theorem isYearly_iff {target : String} :
    isYearly target = true ↔ ∃ spelling year, target = "es" ++ spelling ∧
      Spells year spelling.toList ∧ HasLibrary year := by
  constructor
  · intro yearly
    unfold isYearly at yearly
    split at yearly
    · next digits shape =>
        split at yearly
        · next year read =>
            refine ⟨String.ofList digits, year, String.toList_inj.mp ?_, ?_, ?_⟩
            · rw [toList_es, String.toList_ofList, shape]
            · rw [String.toList_ofList]
              exact readYear_eq_some_iff.mp read
            · simp only [Bool.and_eq_true, decide_eq_true_eq, UInt16.size] at yearly
              exact ⟨yearly.1, Nat.le_of_lt_succ yearly.2⟩
        · cases yearly
    · cases yearly
  · rintro ⟨spelling, year, rfl, spells, from2016, small⟩
    have below : year < UInt16.size := Nat.lt_succ_of_le small
    rw [isYearly, toList_es]
    simp [readYear_eq_some_iff.mpr spells, from2016, below]

theorem selects_fileName (target : Option String) :
    Selects (lowered (target.getD "")) (fileName target) := by
  rw [fileName]
  generalize lowered (target.getD "") = small
  split
  · next sixth => exact .es6 (by simpa using sixth)
  · next notSixth =>
      split
      · next next => exact next ▸ .next
      · next notNext =>
          split
          · next yearly =>
              obtain ⟨spelling, year, rfl, spells, has⟩ := isYearly_iff.mp yearly
              have file : "lib." ++ ("es" ++ spelling) ++ ".full.d.ts" = yearFile spelling := by
                rw [yearFile, ← String.append_assoc]
                rfl
              rw [file]
              exact .year spells has
          · next notYearly =>
              refine .standard (by simpa using notSixth) notNext ?_
              exact fun spelling year named spells has =>
                notYearly (isYearly_iff.mpr ⟨spelling, year, named, spells, has⟩)

/-- Of the targets that are named one by one none is a year that has a library. -/
theorem not_spells_of_named {target spelling : String}
    (one : target = "es6" ∨ target = "es2015" ∨ target = "esnext")
    (named : target = "es" ++ spelling) (has : HasLibrary year) :
    ¬ Spells year spelling.toList := by
  intro spells
  have read := readYear_eq_some_iff.mpr spells
  have cut : ∀ rest, "es" ++ rest = target → readYear rest.toList = some year := fun rest joined => by
    rw [(String.append_right_inj "es").mp (joined.trans named), read]
  obtain ⟨from2016, -⟩ := has
  rcases one with rfl | rfl | rfl
  · obtain rfl : 6 = year := Option.some.inj (cut "6" (by decide))
    omega
  · obtain rfl : 2015 = year := Option.some.inj (cut "2015" (by decide))
    omega
  · have unread := cut "next" (by decide)
    revert unread
    simp [readYear]

/-- A year that has a library selects the file with the year as it is spelled. -/
theorem Selects.eq_yearFile {target file spelling : String} (selects : Selects target file)
    (named : target = "es" ++ spelling) (spells : Spells year spelling.toList)
    (has : HasLibrary year) : file = yearFile spelling := by
  cases selects with
  | es6 sixth => exact absurd spells (not_spells_of_named (or_assoc.mp (.inl sixth)) named has)
  | next => exact absurd spells (not_spells_of_named (.inr (.inr rfl)) named has)
  | year => rw [(String.append_right_inj "es").mp named]
  | standard sixth next years => exact absurd has (years spelling year named spells)

theorem yearFile_injective : Function.Injective yearFile := by
  intro left right same
  exact (String.append_right_inj _).mp ((String.append_left_inj _).mp same)

/-- Among the files that are named one by one only the last has the form of a year's, for what is no
year. -/
theorem yearFile_ne_of_named {spelling : String} (spells : Spells year spelling.toList) :
    yearFile spelling ≠ "lib.d.ts" ∧ yearFile spelling ≠ "lib.es6.d.ts" ∧
      yearFile spelling ≠ "lib.esnext.full.d.ts" := by
  have length : (yearFile spelling).length = 16 + spelling.length := by
    rw [yearFile, String.length_append, String.length_append]
    have ends : ("lib.es".length = 6) ∧ (".full.d.ts".length = 10) := by decide
    omega
  refine ⟨fun same => ?_, fun same => ?_, fun same => ?_⟩
  · have short : "lib.d.ts".length = 8 := by decide
    rw [same] at length
    omega
  · have short : "lib.es6.d.ts".length = 12 := by decide
    rw [same] at length
    omega
  · have unread : readYear "next".toList = none := by decide
    have next : spelling = "next" := yearFile_injective (same.trans (by decide))
    have read := readYear_eq_some_iff.mpr spells
    rw [next, unread] at read
    cases read

/-- The file of a year is selected by that year alone, written without anything in front. -/
theorem Selects.eq_yearFile_toString_iff {target file : String} (selects : Selects target file)
    (has : HasLibrary year) :
    file = yearFile (toString year) ↔ target = "es" ++ toString year := by
  constructor
  · intro same
    obtain ⟨notStandard, notSixth, notNext⟩ := yearFile_ne_of_named (spells_toString year)
    cases selects with
    | es6 sixth => exact absurd same.symm notSixth
    | next => exact absurd same.symm notNext
    | year => rw [yearFile_injective same]
    | standard => exact absurd same.symm notStandard
  · intro named
    exact selects.eq_yearFile named (spells_toString year) has

/-- The selected file belongs to the toolchain unless its year has something in front. -/
theorem Selects.isLibrary_iff {target file : String} (selects : Selects target file) :
    IsLibrary file ↔ ¬ IsPadded target := by
  constructor
  · rintro library ⟨spelling, year, named, spells, has, differ⟩
    rw [selects.eq_yearFile named spells has] at library
    obtain ⟨notStandard, notSixth, notNext⟩ := yearFile_ne_of_named spells
    obtain ⟨other, -, same⟩ : ∃ other, HasLibrary other ∧
        yearFile spelling = yearFile (toString other) := by
      simpa [IsLibrary, notStandard, notSixth, notNext] using library
    obtain rfl := yearFile_injective same
    exact differ (by rw [spells.unique (spells_toString other)])
  · intro plain
    cases selects with
    | es6 => exact .inr (.inl rfl)
    | next => exact .inr (.inr (.inl rfl))
    | standard => exact .inl rfl
    | @year spelling year spells has =>
        have same : spelling = toString year := by
          by_contra differ
          exact plain ⟨spelling, year, rfl, spells, has, differ⟩
        exact .inr (.inr (.inr ⟨year, has, by rw [← same]⟩))

/-- The selected file is a name of its own, without separators. -/
theorem Selects.isSegment {target file : String} (selects : Selects target file) :
    (Component.name file).IsSegment := by
  cases selects with
  | es6 => decide
  | next => decide
  | standard => decide
  | @year spelling year spells has =>
      have free : '/' ∉ spelling.toList := fun member => by
        rcases spells.ordinary '/' member with plus | digit
        · revert plus
          decide
        · revert digit
          decide
      refine SourcePath.isSegment_of_long ?_ ?_
      · rw [yearFile, String.length_append, String.length_append]
        have start : "lib.es".length = 6 := by decide
        omega
      · simp [yearFile, free]

/-- The default library lies directly in the given directory, under the name that the target in
small letters selects. A year's own library is selected by nothing but that year, and the file is
one of the toolchain's exactly if the target has no plus sign and no zeros in front of a year that
has a library. -/
theorem path_outcome (directory : SourcePath) (target : Option String) :
    let small := lowered (target.getD "")
    let file := fileName target
    path directory target = directory.join ⟨file⟩ ∧
      (path directory target).components = directory.components ++ [.name file] ∧
      Selects small file ∧
      (∀ year, HasLibrary year ∧ file = yearFile (toString year) ↔
        HasLibrary year ∧ small = "es" ++ toString year) ∧
      (IsLibrary file ↔ ¬ IsPadded small) := by
  intro small file
  have selects : Selects small file := selects_fileName target
  exact ⟨rfl, directory.components_join_name selects.isSegment, selects,
    fun year => and_congr_right selects.eq_yearFile_toString_iff, selects.isLibrary_iff⟩

/-- A year with a plus sign in front selects a file that the toolchain does not have. -/
theorem path_repeats_plus_sign :
    path ⟨"/opt/ts/lib"⟩ (some "es+2016") = ⟨"/opt/ts/lib/lib.es+2016.full.d.ts"⟩ ∧
      ¬ IsLibrary (fileName (some "es+2016")) := by
  refine ⟨by decide +kernel, fun library => ?_⟩
  have small : lowered ((some "es+2016").getD "") = "es+2016" := by decide +kernel
  have spells : Spells 2016 "+2016".toList := ⟨0, .inr (by decide +kernel)⟩
  refine (selects_fileName (some "es+2016")).isLibrary_iff.mp library ?_
  rw [small]
  exact ⟨"+2016", 2016, by decide, spells, by decide, by decide⟩

end ScriptAnalysis.DefaultLibrary
