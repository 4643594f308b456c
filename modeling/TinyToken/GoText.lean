import Mathlib

/-! The parts of Go's `strings` and `strconv` packages that decide branches: white space is
trimmed by code point, containment is containment of the character sequences, and words,
lines and numbers are read character by character. -/
namespace GoText

open List

/-- `unicode.IsSpace`. -/
def isSpace (c : Char) : Bool :=
  c.toNat ∈ [0x09, 0x0A, 0x0B, 0x0C, 0x0D, 0x20, 0x85, 0xA0, 0x1680, 0x2028, 0x2029, 0x202F,
    0x205F, 0x3000] || (0x2000 ≤ c.toNat && c.toNat ≤ 0x200A)

def trimChars (l : List Char) : List Char := (l.dropWhile isSpace).rdropWhile isSpace

def trimSpace (s : String) : String := String.ofList (trimChars s.toList)

/-- `strings.Contains(s, sub)`. -/
def contains (s sub : String) : Bool := decide (sub.toList <:+: s.toList)

/-- `strings.HasPrefix(s, lead)`. -/
def hasLead (s lead : String) : Bool := lead.toList.isPrefixOf s.toList

/-- `len(s)`, the number of bytes. -/
def byteLength (s : String) : ℕ := (s.toList.map Char.utf8Size).sum

/-- `strings.TrimPrefix(s, lead)`. -/
def trimLead (s lead : String) : String :=
  if lead.toList.isPrefixOf s.toList then String.ofList (s.toList.drop lead.toList.length) else s

/-- Trimming on the right keeps the first character unless nothing is left. -/
theorem dropWhile_trimChars (l : List Char) : (trimChars l).dropWhile isSpace = trimChars l := by
  have hleft : (l.dropWhile isSpace).dropWhile isSpace = l.dropWhile isSpace :=
    dropWhile_idempotent _ _
  obtain ⟨t, ht⟩ := rdropWhile_prefix isSpace (l := l.dropWhile isSpace)
  cases hc : trimChars l with
  | nil => rfl
  | cons a m =>
    rw [trimChars] at hc
    rw [hc] at ht
    rw [← ht] at hleft
    by_cases ha : isSpace a
    · rw [cons_append, dropWhile_cons_of_pos ha] at hleft
      have hlen := congrArg length hleft
      have hle := (dropWhile_suffix isSpace (l := m ++ t)).length_le
      simp only [length_cons] at hlen
      omega
    · exact dropWhile_cons_of_neg ha

theorem trimChars_idem (l : List Char) : trimChars (trimChars l) = trimChars l := by
  conv_lhs => rw [trimChars, dropWhile_trimChars]
  exact rdropWhile_idempotent _ _

theorem trimSpace_idem (s : String) : trimSpace (trimSpace s) = trimSpace s := by
  simp only [trimSpace, String.toList_ofList, trimChars_idem]

example : trimSpace " vip\n" = "vip" := by decide

def isDigit (ch : Char) : Bool := '0' ≤ ch && ch ≤ '9'

def isAlnum (ch : Char) : Bool :=
  isDigit ch || ('a' ≤ ch && ch ≤ 'z') || ('A' ≤ ch && ch ≤ 'Z')

def digitValue (ch : Char) : ℕ := ch.toNat - '0'.toNat

theorem isDigit_toNat {ch : Char} (h : isDigit ch = true) : 48 ≤ ch.toNat ∧ ch.toNat ≤ 57 := by
  simpa [isDigit, Char.le_def, UInt32.le_iff_toNat_le] using h

theorem digitValue_lt {ch : Char} (h : isDigit ch = true) : digitValue ch < 10 := by
  have := isDigit_toNat h
  change ch.toNat - 48 < 10
  omega

/-- A digit is known by its value. -/
theorem digitValue_inj {a b : Char} (ha : isDigit a = true) (hb : isDigit b = true)
    (h : digitValue a = digitValue b) : a = b := by
  have := isDigit_toNat ha
  have := isDigit_toNat hb
  change a.toNat - 48 = b.toNat - 48 at h
  exact Char.toNat_inj.mp (by omega)

/-- The word that is being read, from its end, and the words after it. -/
def readChar (sep : Char → Bool) (ch : Char) (read : List Char × List (List Char)) :
    List Char × List (List Char) :=
  if sep ch then ([], read.1 :: read.2) else (ch :: read.1, read.2)

/-- The pieces between separators, empty ones included. -/
def splitAt (sep : Char → Bool) (text : String) : List String :=
  let read := text.toList.foldr (readChar sep) ([], [])
  (read.1 :: read.2).map String.ofList

/-- The words of a text. -/
def fields (text : String) : List String := (splitAt isSpace text).filter (· ≠ "")

def lines (text : String) : List String := splitAt (· = '\n') text

/-- What stands before the first occurrence of a character. -/
def before (sep : Char) (text : String) : String := String.ofList (text.toList.takeWhile (· ≠ sep))

/-- The text after a given beginning. -/
def after (start text : String) : Option String :=
  if start.toList = text.toList.take start.toList.length then
    some (String.ofList (text.toList.drop start.toList.length))
  else none

/-- The extension of a file name, with its dot. -/
def extension (filename : String) : String :=
  let name := filename.toList.reverse.takeWhile (· ≠ '/')
  if '.' ∈ name then String.ofList ('.' :: (name.takeWhile (· ≠ '.')).reverse) else ""

/-- Lower case, as far as the result is an ASCII letter: two other letters have such a form. -/
def lowerChar (ch : Char) : Char :=
  if 'A' ≤ ch ∧ ch ≤ 'Z' then Char.ofNat (ch.toNat + 32)
  else if ch.toNat = 0x212A then 'k'
  else if ch.toNat = 0x130 then 'i'
  else ch

def toLower (text : String) : String := String.ofList (text.toList.map lowerChar)

/-- Case folding onto ASCII letters. -/
def foldChar (ch : Char) : Char :=
  if 'A' ≤ ch ∧ ch ≤ 'Z' then Char.ofNat (ch.toNat + 32)
  else if ch.toNat = 0x212A then 'k'
  else if ch.toNat = 0x17F then 's'
  else ch

/-- Equality up to case with an ASCII text. -/
def equalFold (text ascii : String) : Bool := text.toList.map foldChar = ascii.toList.map foldChar

def digits (cs : List Char) : Option ℕ :=
  if cs = [] ∨ cs.all isDigit = false then none
  else some (cs.foldl (fun n ch => n * 10 + digitValue ch) 0)

/-- A signed decimal number of 64 bits. -/
def parseInt (text : String) : Option ℤ :=
  match text.toList with
  | '-' :: cs => ((digits cs).filter fun n => n ≤ 2 ^ 63).map fun n => -(n : ℤ)
  | '+' :: cs => ((digits cs).filter fun n => n < 2 ^ 63).map fun n => (n : ℤ)
  | cs => ((digits cs).filter fun n => n < 2 ^ 63).map fun n => (n : ℤ)

example : fields " 1 THA7 " = ["1", "THA7"] := by decide +kernel

example : parseInt "-1001" = some (-1001) := by decide +kernel

end GoText
