/-
# Semantic versions

A version is three numbers, the identifiers of a pre-release and the identifiers of a build.
Its precedence is a value of a linear order: the numbers first, then the identifiers of the
pre-release, where numbers come before texts, a list before its continuations and every
pre-release before the release. The build does not count.
-/

import Mathlib.Data.Char
import Mathlib.Data.List.Lex
import Mathlib.Data.Prod.Lex
import Mathlib.Data.Sum.Order
import Mathlib.Order.WithBot

namespace Useful.Math

structure Version where
  major : ℕ
  minor : ℕ
  patch : ℕ
  pre : List (List Char)
  build : List (List Char)
  deriving DecidableEq

namespace Version

/-- The number a text of digits stands for. -/
def numeral (text : List Char) : ℕ := text.foldl (fun n c => n * 10 + (c.toNat - 48)) 0

/-- An identifier of a pre-release, below all texts if it is a number. -/
abbrev Identifier := ℕ ⊕ₗ List Char

def identifier (text : List Char) : Identifier :=
  if text.all Char.isDigit then Sum.inlₗ (numeral text) else Sum.inrₗ text

/-- Where a version stands among all others. -/
abbrev Precedence := ℕ ×ₗ ℕ ×ₗ ℕ ×ₗ WithTop (List Identifier)

def precedence (v : Version) : Precedence :=
  toLex (v.major, toLex (v.minor, toLex (v.patch,
    if v.pre = [] then ⊤ else ((v.pre.map identifier : List Identifier) : WithTop (List Identifier)))))

/-- The identifiers after a separator, if it is there. -/
def suffix (sep : Char) (text : List Char) : List (List Char) :=
  match text.dropWhile (· ≠ sep) with
  | [] => []
  | _ :: rest => rest.splitOn '.'

/-- Read a text as a version, without looking for the characters it may hold. -/
def read (text : List Char) : Option Version :=
  let version := text.takeWhile (· ≠ '+')
  match (version.takeWhile (· ≠ '-')).splitOn '.' with
  | [major, minor, patch] =>
      some ⟨numeral major, numeral minor, numeral patch, suffix '-' version, suffix '+' text⟩
  | _ => none

end Version

/-- The precedence of a text, below every version if it is none. -/
def versionPrecedence (text : String) : WithBot Version.Precedence :=
  ((Version.read text.toList).map Version.precedence : Option Version.Precedence)

example : versionPrecedence "1.0.0-rc.2" < versionPrecedence "1.0.0-rc.10" := by decide

example : versionPrecedence "1.0.0-rc.10" < versionPrecedence "1.0.0" := by decide

example : versionPrecedence "1.0.0+a" = versionPrecedence "1.0.0+b" := by decide

end Useful.Math
