import Mathlib.Data.List.DropRight
import Mathlib.Data.List.Infix

/-! # Trimming, searching and splitting text

Strings as lists of Unicode code points. White space is the Unicode property `White_Space`; only the
ASCII letters have a case. -/

namespace NomoApi

open List

/-- **Unicode white space.** -/
def isSpace (c : Char) : Bool :=
  c ∈ ['\t', '\n', '\u000b', '\u000c', '\r', ' ', '\u0085', '\u00a0', '\u1680', '\u2028',
    '\u2029', '\u202f', '\u205f', '\u3000'] || ('\u2000' ≤ c && c ≤ '\u200a')

def trimChars (cs : List Char) : List Char := (cs.dropWhile isSpace).rdropWhile isSpace

/-- **The text without its leading and trailing white space.** -/
def trimSpace (s : String) : String := String.ofList (trimChars s.toList)

theorem dropWhile_rdropWhile {p : Char → Bool} {cs : List Char} (h : cs.dropWhile p = cs) :
    (cs.rdropWhile p).dropWhile p = cs.rdropWhile p := by
  obtain ⟨t, ht⟩ := cs.rdropWhile_prefix p
  cases hr : cs.rdropWhile p with
  | nil => rfl
  | cons c r =>
    rw [hr] at ht
    rw [← ht, cons_append] at h
    have hc : ¬ p c := by
      intro hpc
      rw [dropWhile_cons_of_pos hpc] at h
      have hlen := congrArg length h
      have := (dropWhile_sublist p (l := r ++ t)).length_le
      simp only [length_cons] at hlen
      omega
    rw [dropWhile_cons_of_neg hc]

@[simp] theorem trimSpace_trimSpace (s : String) : trimSpace (trimSpace s) = trimSpace s := by
  have hidem : trimChars (trimChars s.toList) = trimChars s.toList := by
    have hdrop : (s.toList.dropWhile isSpace).dropWhile isSpace = s.toList.dropWhile isSpace :=
      dropWhile_idempotent isSpace _
    unfold trimChars
    rw [dropWhile_rdropWhile hdrop]
    exact rdropWhile_idempotent isSpace _
  simp [trimSpace, hidem]

/-- **Substring test**: `sub` occurs in `s`. -/
def contains (s sub : String) : Bool := decide (sub.toList <:+: s.toList)

/-- **Prefix test.** -/
def hasPrefix (s start : String) : Bool := decide (start.toList <+: s.toList)

def hasSuffix (s ending : String) : Bool := decide (ending.toList <:+ s.toList)

/-- The text without an ending (`strings.TrimSuffix`). -/
def trimSuffix (s ending : String) : String :=
  if hasSuffix s ending then
    String.ofList (s.toList.take (s.toList.length - ending.toList.length))
  else s

@[simp] theorem trimSuffix_append (s ending : String) : trimSuffix (s ++ ending) ending = s := by
  have hsuffix : hasSuffix (s ++ ending) ending = true := by
    rw [hasSuffix, String.toList_append]
    exact decide_eq_true (suffix_append _ _)
  rw [trimSuffix, if_pos hsuffix, String.toList_append, length_append, Nat.add_sub_cancel,
    take_left', String.ofList_toList]
  rfl

/-- The number that decimal digits are read as, after those that gave `n`. Reading stops where 64
bits do not hold the number. -/
def parseUint : Nat → List Char → Option Nat
  | n, [] => some n
  | n, c :: cs =>
    if c.isDigit then
      let n := n * 10 + (c.toNat - '0'.toNat)
      if n ≥ 18446744073709551616 then some 18446744073709551615 else parseUint n cs
    else none

/-- **`strconv.Atoi`**, without the error: no number gives zero, one out of range the bound. -/
def atoi (s : String) : Int :=
  let parse (digits : List Char) : Nat :=
    if digits = [] then 0 else (parseUint 0 digits).getD 0
  match s.toList with
  | '-' :: digits => max (-(parse digits : Int)) (-9223372036854775808)
  | '+' :: digits => min (parse digits) 9223372036854775807
  | digits => min (parse digits) 9223372036854775807

example : atoi "12" = 12 ∧ atoi "-3" = -3 ∧ atoi "4s" = 0 := by decide +kernel

/-- **The text in lower case.** -/
def toLower (s : String) : String := String.ofList (s.toList.map Char.toLower)

/-- Replacement in a list of characters; `skip` counts those still to be passed over. -/
def replaceChars (old new : List Char) : Nat → List Char → List Char
  | _, [] => []
  | skip + 1, _ :: cs => replaceChars old new skip cs
  | 0, c :: cs =>
    if old <+: c :: cs then new ++ replaceChars old new (old.length - 1) cs
    else c :: replaceChars old new 0 cs

/-- **Every occurrence of `old`, from the left and without overlaps, replaced by `new`**; `old` is
not empty. -/
def replaceAll (s old new : String) : String :=
  String.ofList (replaceChars old.toList new.toList 0 s.toList)

def trimOf (c : Char) (s : String) : String :=
  String.ofList ((s.toList.dropWhile (· = c)).rdropWhile (· = c))

def splitChars (sep : Char) : List Char → List (List Char)
  | [] => [[]]
  | c :: cs =>
    if c = sep then [] :: splitChars sep cs
    else
      match splitChars sep cs with
      | [] => [[c]]
      | part :: parts => (c :: part) :: parts

/-- **The parts of a text between separators**: one for a text without any. -/
def split (s : String) (sep : Char) : List String :=
  (splitChars sep s.toList).map String.ofList

theorem splitChars_ne_nil (sep : Char) (cs : List Char) : splitChars sep cs ≠ [] := by
  cases cs with
  | nil => simp [splitChars]
  | cons c cs =>
    rw [splitChars]
    split
    · simp
    · split <;> simp

theorem split_ne_nil (s : String) (sep : Char) : split s sep ≠ [] := by
  simp [split, splitChars_ne_nil]

end NomoApi
