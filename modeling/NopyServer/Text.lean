/-
The text functions of the message handlers.  A message is a text of fields
separated by bars and line feeds; the handlers split it, look fields up by
name and read numbers from the front of them.

A text stands for the bytes of a `std::string`: each character is a byte, and
`length` is `size()`.
-/
import Mathlib.Algebra.Group.Int.Defs
import Mathlib.Algebra.Group.Nat.Defs
import Mathlib.Tactic.Common

namespace NopyServer

/-- A 32-bit signed result: the value is taken modulo `2 ^ 32`. -/
def int32 (n : Int) : Int := Int.bmod n (2 ^ 32)

theorem int32_of_range {n : Int} (hlow : -(2 ^ 31) ≤ n) (hhigh : n < 2 ^ 31) :
    int32 n = n := by
  unfold int32
  rw [Int.bmod_def]
  split <;> omega

/-- The words of `explode` between occurrences of the delimiter, with the word
read so far. -/
def explodeWords (delimiter : List Char) :
    Nat → List Char → List Char → List (List Char)
  | 0, word, rest => [word ++ rest]
  | _ + 1, word, [] => [word]
  | fuel + 1, word, c :: rest =>
      if delimiter.isPrefixOf (c :: rest) then
        word :: explodeWords delimiter fuel []
          ((c :: rest).drop delimiter.length)
      else explodeWords delimiter fuel (word ++ [c]) rest

/-- `explode`.  A text without the delimiter gives thirty empty words, unless
the delimiter is a line feed or a comma. -/
def explode (delimiter str : String) : List String :=
  if delimiter = "" then []
  else
    let words := explodeWords delimiter.toList str.length [] str.toList
    if words.length = 1 ∧ delimiter ≠ "\n" ∧ delimiter ≠ "," then
      List.replicate 30 ""
    else words.map String.ofList

theorem explode_ofList (delimiter : String) (chars : List Char) :
    explode delimiter (String.ofList chars) =
      if delimiter = "" then []
      else
        let words := explodeWords delimiter.toList chars.length [] chars
        if words.length = 1 ∧ delimiter ≠ "\n" ∧ delimiter ≠ "," then
          List.replicate 30 ""
        else words.map String.ofList := by
  simp only [explode, String.length_ofList, String.toList_ofList]

/-- `replace_str`. -/
def replaceStr (str old new : String) : String :=
  String.ofList (List.intercalate new.toList
    (explodeWords old.toList str.length [] str.toList))

/-- The text `call_dialog` works on: `replace_str` has turned its line feeds
into bars. -/
def dialogText (cch : String) : String :=
  String.ofList (cch.toList.map fun c => if c = '\n' then '|' else c)

/-- The words `a_` of `call_dialog`. -/
def dialogWords (cch : String) : List String := explode "|" (dialogText cch)

/-- `get_embed`. -/
def getEmbed (cch name : String) : String :=
  ((explode "|" ((explode (name ++ "|") cch).getD 1 "")).getD 0 "")

/-- `isdigit`. -/
def isDigit (c : Char) : Bool := '0' ≤ c && c ≤ '9'

/-- The first character of a text, the terminating zero of an empty one. -/
def firstChar (str : String) : Char := str.toList.headD (Char.ofNat 0)

/-- The value of the digits at the front of a text. -/
def leadingDigits : Nat → List Char → Nat
  | value, [] => value
  | value, c :: rest =>
      if isDigit c then leadingDigits (10 * value + (c.toNat - 48)) rest
      else value

/-- `std::atoi`: white space, a sign, digits; a value beyond 32 bits stops at
the nearest end of the range. -/
def atoi (str : String) : Int :=
  let rest := str.toList.dropWhile fun c => c = ' ' || '\t' ≤ c && c ≤ '\r'
  match rest with
  | '-' :: digits => max (-(leadingDigits 0 digits : Int)) (-(2 ^ 31))
  | '+' :: digits => min (leadingDigits 0 digits : Int) (2 ^ 31 - 1)
  | digits => min (leadingDigits 0 digits : Int) (2 ^ 31 - 1)

/-- A text that starts with a digit is not read as a negative number. -/
theorem atoi_nonneg {str : String} (hdigit : isDigit (firstChar str) = true) :
    0 ≤ atoi str := by
  unfold firstChar at hdigit
  unfold atoi
  generalize str.toList = chars at hdigit ⊢
  cases chars with
  | nil => exact absurd hdigit (by decide)
  | cons c rest =>
      rw [List.headD_cons] at hdigit
      have hplain : c ≠ '-' ∧ c ≠ '+' ∧
          (c = ' ' || '\t' ≤ c && c ≤ '\r') = false := by
        refine ⟨?_, ?_, ?_⟩
        · rintro rfl
          exact absurd hdigit (by decide)
        · rintro rfl
          exact absurd hdigit (by decide)
        · have hlow : '0' ≤ c := of_decide_eq_true (Bool.and_eq_true_iff.mp hdigit).1
          have hspace : c ≠ ' ' := by
            rintro rfl
            exact absurd hlow (by decide)
          have hhigh : ¬ c ≤ '\r' := fun hle =>
            absurd (Char.le_trans hlow hle) (by decide)
          simp [hspace, hhigh]
      rw [List.dropWhile_cons, hplain.2.2]
      dsimp only
      split
      next heq => exact absurd (List.cons.inj heq).1 hplain.1
      next heq => exact absurd (List.cons.inj heq).1 hplain.2.1
      next => omega

theorem atoi_lt (str : String) : atoi str < 2 ^ 31 := by
  unfold atoi
  dsimp only
  split
  · omega
  · omega
  · omega

/-- `std::stoi`: as `atoi`, but throws where there is no digit or the value is
beyond 32 bits. -/
def stoi (str : String) : Option Int :=
  let rest := str.toList.dropWhile fun c => c = ' ' || '\t' ≤ c && c ≤ '\r'
  let digits :=
    match rest with
    | '-' :: digits => digits
    | '+' :: digits => digits
    | digits => digits
  let value : Int :=
    if rest.head? = some '-' then -(leadingDigits 0 digits : Int)
    else leadingDigits 0 digits
  if isDigit (digits.headD ' ') ∧ -(2 ^ 31) ≤ value ∧ value < 2 ^ 31 then
    some value
  else none

namespace TextScanner

/-- `TextScanner::parse`. -/
def parse (string : String) : List (List Char) :=
  (string.toList.splitOn '\n').map fun line => line.filter (· ≠ '\r')

/-- `TextScanner::get`: the second field of the first line that starts with the
key. -/
def get (string key : String) : String :=
  let lines := (parse string).filter (· ≠ [])
  match (lines.map fun line => line.splitOn '|').find?
      fun tokens => tokens.headD [] == key.toList with
  | some tokens => String.ofList (tokens.getD 1 [])
  | none => ""

/-- `TextScanner::try_get`. -/
def tryGet (string key : String) : Option String :=
  let value := get string key
  if value ≠ "" then some value else none

end TextScanner

/-- `std::tolower` on an ASCII character. -/
def toLowerChar (c : Char) : Char :=
  if 'A' ≤ c ∧ c ≤ 'Z' then Char.ofNat (c.toNat + 32) else c

/-- `std::toupper` on an ASCII character. -/
def toUpperChar (c : Char) : Char :=
  if 'a' ≤ c ∧ c ≤ 'z' then Char.ofNat (c.toNat - 32) else c

/-- `to_lower`. -/
def toLower (str : String) : String :=
  String.ofList (str.toList.map toLowerChar)

/-- `iequals`. -/
def iequals (left right : String) : Bool := toLower left == toLower right

example : getEmbed "a|b\ntilex|42|\ntiley|7" "tilex" = "42" := by decide

example : TextScanner.get "tilex|42|\r\nbuttonClicked|reset\r" "buttonClicked" =
    "reset" := by decide

example : atoi " -17x" = -17 := by decide

/-- `str.find(text) != npos`. -/
def textFind (str text : String) : Bool :=
  str.toList.tails.any fun tail => text.toList.isPrefixOf tail

end NopyServer
