/-
# The server's order of versions

`semverLess` compares the three numbers of a version and nothing else. On versions whose
numbers fit a machine word and whose build adds no digits to the last number, this is the
order of the numbers, so it never contradicts the precedence of semantic versions and
leaves open what only pre-releases decide. The latest version of a channel is a greatest
one in this order, however the rows are listed.
-/

import Mathlib.Data.List.TakeWhile
import Useful.Math.Semver
import Useful.Server.Catalog

namespace Useful.Server.Catalog

open Useful.Math

/-! ## The numbers of a version -/

abbrev Numbers := ℕ ×ₗ ℕ ×ₗ ℕ

def Version.numbers (v : Version) : Numbers := toLex (v.major, toLex (v.minor, v.patch))

/-- The numbers of a text, below all others if it is no version. -/
def numbersOf (version : String) : WithBot Numbers :=
  ((Version.read version.toList).map Version.numbers : Option Numbers)

/-- The part of the build that `semverLess` takes for the end of the last number: what comes
before the first hyphen. -/
def countedBuild (version : String) : List Char :=
  (cut '-' version.toList).1.dropWhile (· ≠ '+')

/-- The numbers fit 63 bits, and no digit of the build is counted. -/
structure Legible (version : String) : Prop where
  fits : ∀ v, Version.read version.toList = some v →
    v.major < 2 ^ 63 ∧ v.minor < 2 ^ 63 ∧ v.patch < 2 ^ 63
  build : ∀ c ∈ countedBuild version, c.isDigit = false

/-! ## Cutting -/

theorem cut_fst (c : Char) (text : List Char) : (cut c text).1 = text.takeWhile (· ≠ c) := by
  induction text with
  | nil => rfl
  | cons d text ih =>
      by_cases hd : d = c
      · simp [cut, hd]
      · simp [cut, hd, ih]

theorem not_mem_cut (c : Char) (text : List Char) : c ∉ (cut c text).1 := by
  rw [cut_fst]
  intro hmem
  simpa using List.mem_takeWhile_imp hmem

theorem splitOn_cut (c : Char) (text : List Char) :
    text.splitOn c = (cut c text).1 :: ((cut c text).2.map (List.splitOn c)).getD [] := by
  have hjoin := cut_join c text
  cases hrest : (cut c text).2 with
  | none =>
      rw [hrest, List.append_nil] at hjoin
      have hnone : c ∉ text := hjoin ▸ not_mem_cut c text
      rw [List.splitOn_eq_singleton hnone, ← hjoin]
      rfl
  | some rest =>
      rw [hrest] at hjoin
      conv_lhs => rw [hjoin]
      rw [List.splitOn_append_cons_self, List.splitOn_eq_singleton (not_mem_cut c text)]
      rfl

/-! ## Values of digits -/

theorem digitsValue_append {part tail : List Char} (h : ∀ c ∈ tail, c.isDigit = false) :
    digitsValue (part ++ tail) = digitsValue part := by
  unfold digitsValue
  rw [List.foldl_append]
  generalize List.foldl _ 0 part = start
  induction tail with
  | nil => rfl
  | cons c tail ih =>
      rw [List.foldl_cons, if_neg (by simp [h c List.mem_cons_self])]
      exact ih fun d hd => h d (List.mem_cons_of_mem _ hd)

theorem numeral_append (part : List Char) (c : Char) :
    Version.numeral (part ++ [c]) = Version.numeral part * 10 + (c.toNat - 48) := by
  unfold Version.numeral
  rw [List.foldl_append]
  rfl

/-- Digits are read as their number, as far as a machine word holds it. -/
theorem digitsValue_eq {part : List Char} (hdigits : part.all Char.isDigit = true) :
    digitsValue part = Int64.ofNat (Version.numeral part) := by
  induction part using List.reverseRecOn with
  | nil => rfl
  | append_singleton part c ih =>
      rw [List.all_append, Bool.and_eq_true] at hdigits
      have hc : c.isDigit = true := by simpa using hdigits.2
      have hvalue : digitsValue (part ++ [c]) =
          digitsValue part * 10 + Int64.ofNat (c.toNat - 48) := by
        unfold digitsValue
        rw [List.foldl_append, List.foldl_cons, if_pos hc]
        rfl
      rw [hvalue, ih hdigits.1, numeral_append, Int64.ofNat_add, Int64.ofNat_mul]
      rfl

theorem toInt_digitsValue {part : List Char} (hdigits : part.all Char.isDigit = true)
    (hfits : Version.numeral part < 2 ^ 63) :
    (digitsValue part).toInt = Version.numeral part := by
  rw [digitsValue_eq hdigits, Int64.toInt_ofNat_of_lt hfits]

/-! ## Reading a version -/

/-- Three numerals, however they are split. -/
theorem exists_numerals {core : List Char} (h : isSemverCore core = true) :
    ∃ major minor patch : List Char, major.all Char.isDigit = true ∧
      minor.all Char.isDigit = true ∧ patch.all Char.isDigit = true ∧
      core = major ++ '.' :: (minor ++ '.' :: patch) ∧ core.splitOn '.' = [major, minor, patch] ∧
      ∀ more, splitN '.' 3 (core ++ more) = [major, minor, patch ++ more] := by
  unfold isSemverCore at h
  split at h
  · next major rest hmajor =>
    split at h
    · next minor patch hminor =>
      simp only [isNumeral, Bool.and_eq_true] at h
      have hcore := cut_join '.' core
      have hrest := cut_join '.' rest
      rw [hmajor] at hcore
      rw [hminor] at hrest
      have hdot : '.' ∉ patch := by
        intro hmem
        have hdigit := List.all_eq_true.mp h.2.1 _ hmem
        simp [Char.isDigit] at hdigit
      refine ⟨major, minor, patch, h.1.1.1, h.1.2.1, h.2.1, by rw [hcore, hrest], ?_, ?_⟩
      · rw [splitOn_cut, hmajor]
        simp only [Option.map_some, Option.getD_some]
        rw [splitOn_cut, hminor]
        simp only [Option.map_some, Option.getD_some]
        rw [List.splitOn_eq_singleton hdot]
      · intro more
        have hsecond : cut '.' (rest ++ more) = (minor, some (patch ++ more)) := by
          have happend := cut_append_of_some more (congrArg Prod.snd hminor)
          rwa [hminor] at happend
        have hfirst : cut '.' (core ++ more) = (major, some (rest ++ more)) := by
          have happend := cut_append_of_some more (congrArg Prod.snd hmajor)
          rwa [hmajor] at happend
        simp [splitN, hfirst, hsecond]
    · cases h
  · cases h

/-- What a text holds before its first hyphen: the core, and the build if there is no
pre-release before it. -/
theorem cut_hyphen (v : String) :
    (cut '-' v.toList).1 = (cut '-' (cut '+' v.toList).1).1 ++ countedBuild v := by
  have hcore : (cut '-' (cut '+' v.toList).1).1 = (cut '-' v.toList).1.takeWhile (· ≠ '+') := by
    simp only [cut_fst, List.takeWhile_takeWhile]
    refine congrArg (fun p => List.takeWhile p v.toList) (funext fun c => ?_)
    simp only [decide_eq_true_eq, decide_eq_decide]
    exact and_comm
  rw [hcore, countedBuild, List.takeWhile_append_dropWhile]

/-- What `semverLess` splits a version into, next to what the version says. -/
theorem exists_parts {v : String} (h : isSemver v = true) :
    ∃ major minor patch : List Char, major.all Char.isDigit = true ∧
      minor.all Char.isDigit = true ∧ patch.all Char.isDigit = true ∧
      versionParts v = [major, minor, patch ++ countedBuild v] ∧
      ∃ pre build, Version.read v.toList =
        some ⟨Version.numeral major, Version.numeral minor, Version.numeral patch, pre, build⟩ := by
  simp only [isSemver, isSemverText, Bool.and_eq_true] at h
  obtain ⟨major, minor, patch, hmajor, hminor, hpatch, -, hsplit, hparts⟩ :=
    exists_numerals h.2.1.1
  refine ⟨major, minor, patch, hmajor, hminor, hpatch, ?_, ?_⟩
  · rw [versionParts, cut_hyphen, hparts]
  · rw [cut_fst, cut_fst] at hsplit
    refine ⟨Version.suffix '-' (v.toList.takeWhile (· ≠ '+')), Version.suffix '+' v.toList, ?_⟩
    simp only [Version.read]
    rw [hsplit]

variable {a b v : String}

/-- On a legible version, the server sees the numbers. -/
theorem versionKey_eq (h : isSemver v = true) (hlegible : Legible v) :
    ∃ major minor patch : ℕ, versionKey v = [(major : Int), (minor : Int), (patch : Int)] ∧
      numbersOf v = (toLex (major, toLex (minor, patch)) : Numbers) := by
  obtain ⟨major, minor, patch, hmajor, hminor, hpatch, hparts, pre, build, hread⟩ := exists_parts h
  obtain ⟨hmajorFits, hminorFits, hpatchFits⟩ := hlegible.fits _ hread
  refine ⟨Version.numeral major, Version.numeral minor, Version.numeral patch, ?_, ?_⟩
  · rw [versionKey, hparts]
    simp only [List.map_cons, List.map_nil]
    rw [toInt_digitsValue hmajor hmajorFits, toInt_digitsValue hminor hminorFits,
      digitsValue_append hlegible.build, toInt_digitsValue hpatch hpatchFits]
  · rw [numbersOf, hread]
    rfl

theorem versionKey_lt_iff (ha : isSemver a = true) (hb : isSemver b = true)
    (hlegibleA : Legible a) (hlegibleB : Legible b) :
    versionKey a < versionKey b ↔ numbersOf a < numbersOf b := by
  obtain ⟨major, minor, patch, hkey, hnumbers⟩ := versionKey_eq ha hlegibleA
  obtain ⟨major', minor', patch', hkey', hnumbers'⟩ := versionKey_eq hb hlegibleB
  rw [hkey, hkey', hnumbers, hnumbers', WithBot.coe_lt_coe]
  simp only [List.cons_lt_cons_iff, Prod.Lex.toLex_lt_toLex, Nat.cast_lt, Nat.cast_inj,
    List.lt_irrefl, and_false, or_false]

/-- Smaller numbers mean a lower precedence. -/
theorem versionPrecedence_lt (h : numbersOf a < numbersOf b) :
    versionPrecedence a < versionPrecedence b := by
  unfold numbersOf at h
  unfold versionPrecedence
  cases hb : Version.read b.toList with
  | none =>
      rw [hb] at h
      exact absurd h not_lt_bot
  | some w =>
      cases ha : Version.read a.toList with
      | none => exact WithBot.bot_lt_coe _
      | some v =>
          rw [ha, hb] at h
          replace h : Version.numbers v < Version.numbers w := WithBot.coe_lt_coe.mp h
          refine WithBot.coe_lt_coe.mpr ?_
          simp only [Version.numbers, Prod.Lex.toLex_lt_toLex] at h
          simp only [Version.precedence, Prod.Lex.toLex_lt_toLex]
          tauto

/-! ## The latest version -/

/-- The latest version of a channel is one of a published artifact, and no published version
of the channel is above it. -/
theorem exists_latest {rows : List Artifact} {channel : String}
    (hversions : ∀ art ∈ rows, isSemver art.version = true)
    (hsome : ∃ art ∈ rows, inChannel channel art = true) :
    ∃ best ∈ rows, inChannel channel best = true ∧
      latestVersions rows channel = some best.version ∧
      ∀ other ∈ rows, inChannel channel other = true →
        semverLess best.version other.version = false := by
  obtain ⟨art, hart, hin⟩ := hsome
  rw [latestVersions_eq channel hversions]
  have hmem : art ∈ rows.filter (inChannel channel) := List.mem_filter.mpr ⟨hart, hin⟩
  cases hmax : (rows.filter (inChannel channel)).argmax fun art => versionKey art.version with
  | none =>
      rw [List.argmax_eq_none.mp hmax] at hmem
      cases hmem
  | some best =>
      have hbest := List.mem_filter.mp (List.argmax_mem hmax)
      refine ⟨best, hbest.1, hbest.2, rfl, fun other hother hinOther => ?_⟩
      have hle := List.not_lt_of_mem_argmax (List.mem_filter.mpr ⟨hother, hinOther⟩) hmax
      rw [← semverLess_eq_true (hversions best hbest.1) (hversions other hother)] at hle
      exact Bool.eq_false_of_not_eq_true hle

/-- **The server orders versions by their numbers.** Of two legible versions, one is less than
another exactly when its three numbers are, and then it has a lower precedence too. The
latest version of a channel is one that no published version of the channel is above,
however the rows are listed. -/
theorem semverLess_numbers :
    (∀ a b, isSemver a = true → isSemver b = true → Legible a → Legible b →
      (semverLess a b = true ↔ numbersOf a < numbersOf b) ∧
        (semverLess a b = true → versionPrecedence a < versionPrecedence b)) ∧
      ∀ rows channel, (∀ art ∈ rows, isSemver art.version = true) →
        (∃ art ∈ rows, inChannel channel art = true) →
        ∃ best ∈ rows, inChannel channel best = true ∧
          latestVersions rows channel = some best.version ∧
          ∀ other ∈ rows, inChannel channel other = true →
            semverLess best.version other.version = false ∧
              (Legible best.version → Legible other.version →
                numbersOf other.version ≤ numbersOf best.version) := by
  have hiff : ∀ a b, isSemver a = true → isSemver b = true → Legible a → Legible b →
      (semverLess a b = true ↔ numbersOf a < numbersOf b) := by
    intro a b ha hb hlegibleA hlegibleB
    rw [semverLess_eq_true ha hb]
    exact versionKey_lt_iff ha hb hlegibleA hlegibleB
  constructor
  · intro a b ha hb hlegibleA hlegibleB
    have hless := hiff a b ha hb hlegibleA hlegibleB
    exact ⟨hless, fun h => versionPrecedence_lt (hless.mp h)⟩
  · intro rows channel hversions hsome
    obtain ⟨best, hbest, hin, hlatest, hgreatest⟩ := exists_latest hversions hsome
    refine ⟨best, hbest, hin, hlatest, fun other hother hinOther => ?_⟩
    have hfalse := hgreatest other hother hinOther
    refine ⟨hfalse, fun hlegible hlegibleOther => ?_⟩
    rw [← not_lt, ← hiff _ _ (hversions best hbest) (hversions other hother) hlegible hlegibleOther,
      hfalse]
    exact Bool.false_ne_true

theorem legible_of_read {v : String} {w : Version} (hread : Version.read v.toList = some w)
    (hfits : w.major < 2 ^ 63 ∧ w.minor < 2 ^ 63 ∧ w.patch < 2 ^ 63)
    (hbuild : countedBuild v = []) : Legible v where
  fits u hu := Option.some.inj (hread.symm.trans hu) ▸ hfits
  build c hc := by
    rw [hbuild] at hc
    cases hc

theorem semverLess_numbers_ten :
    semverLess "1.2.0" "1.10.0" = true ∧
      versionPrecedence "1.2.0" < versionPrecedence "1.10.0" := by
  have hlow : Legible "1.2.0" := @legible_of_read _ ⟨1, 2, 0, [], []⟩ (by decide) (by decide)
    (by decide)
  have hhigh : Legible "1.10.0" := @legible_of_read _ ⟨1, 10, 0, [], []⟩ (by decide) (by decide)
    (by decide)
  obtain ⟨hiff, hprecedence⟩ :=
    semverLess_numbers.1 "1.2.0" "1.10.0" (by decide) (by decide) hlow hhigh
  have hless : semverLess "1.2.0" "1.10.0" = true := hiff.mpr (by decide)
  exact ⟨hless, hprecedence hless⟩

/-- A release candidate is not below its release for the server. -/
theorem release_candidate_not_less :
    isSemver "1.0.0-rc.1" = true ∧ isSemver "1.0.0" = true ∧
      versionPrecedence "1.0.0-rc.1" < versionPrecedence "1.0.0" ∧
      semverLess "1.0.0-rc.1" "1.0.0" = false := by
  decide

end Useful.Server.Catalog
