import Mathlib.Algebra.Order.Ring.Nat
import Mathlib.Data.List.TakeWhile
import Mathlib.Tactic.Common

/-!
# Text files

A file is the list of its bytes. `fileLines` is what `std::getline` makes of it, `dropReturn`
takes the carriage return off a line, and `fromChars` reads an unsigned decimal number.
-/

namespace L2Flow

/-- The bytes of an ASCII literal. -/
def asciiBytes (text : String) : List UInt8 :=
  text.toList.map fun c => UInt8.ofNat c.toNat

def kNewline : UInt8 := 0x0a

def kCarriageReturn : UInt8 := 0x0d

/-- The lines that `std::getline` delivers : what a newline ends, and what is left at the end,
unless it is empty. -/
def fileLines : List UInt8 → List (List UInt8)
  | [] => []
  | octet :: rest =>
    if octet = kNewline then [] :: fileLines rest
    else
      match fileLines rest with
      | [] => [[octet]]
      | line :: lines => (octet :: line) :: lines

/-- `line.pop_back()`, if it ends in a carriage return. -/
def dropReturn (line : List UInt8) : List UInt8 :=
  if line.getLast? = some kCarriageReturn then line.dropLast else line

def isDigit (octet : UInt8) : Bool :=
  0x30 ≤ octet && octet ≤ 0x39

/-- The value of a string of digits. -/
def digitsValue (digits : List UInt8) : ℕ :=
  digits.foldl (fun value digit => value * 10 + (digit.toNat - 0x30)) 0

/-- `std::from_chars` into an unsigned integer : the value, unless there is no digit or the
value is too large, and what follows the digits. -/
def fromChars (maximum : ℕ) (text : List UInt8) : Option ℕ × List UInt8 :=
  let digits := text.takeWhile isDigit
  (if digits = [] ∨ maximum < digitsValue digits then none else some (digitsValue digits),
    text.dropWhile isDigit)

/-! ## Fields -/

/-- `std::from_chars` takes the whole text if and only if it is a string of digits whose value
fits. -/
theorem fromChars_eq_iff {maximum value : ℕ} {text : List UInt8} :
    fromChars maximum text = (some value, []) ↔
      text ≠ [] ∧ (∀ octet ∈ text, isDigit octet = true) ∧ digitsValue text ≤ maximum ∧
        value = digitsValue text := by
  rw [fromChars, Prod.mk.injEq, List.dropWhile_eq_nil_iff]
  constructor
  · rintro ⟨hvalue, hdigits⟩
    rw [List.takeWhile_eq_self_iff.2 hdigits] at hvalue
    split_ifs at hvalue with hbad
    rw [not_or, not_lt] at hbad
    exact ⟨hbad.1, hdigits, hbad.2, (Option.some.inj hvalue).symm⟩
  · rintro ⟨hne, hdigits, hle, rfl⟩
    rw [List.takeWhile_eq_self_iff.2 hdigits, if_neg (not_or.2 ⟨hne, Nat.not_lt.2 hle⟩)]
    exact ⟨rfl, hdigits⟩

theorem notMem_of_mem_splitOn {separator : UInt8} : ∀ {line field : List UInt8},
    field ∈ line.splitOn separator → separator ∉ field
  | [], field, hfield => by
    rw [List.splitOn_nil, List.mem_singleton] at hfield
    rw [hfield]
    exact List.not_mem_nil
  | octet :: line, field, hfield => by
    rw [List.splitOn_cons_eq_if_modifyHead] at hfield
    split_ifs at hfield with hseparator
    · rcases List.mem_cons.1 hfield with rfl | hrest
      · exact List.not_mem_nil
      · exact notMem_of_mem_splitOn hrest
    · obtain ⟨first, rest, hsplit⟩ :=
        List.exists_cons_of_ne_nil (List.splitOn_ne_nil separator line)
      rw [hsplit, List.modifyHead_cons, List.mem_cons] at hfield
      rcases hfield with rfl | hrest
      · have hfirst : separator ∉ first :=
          notMem_of_mem_splitOn (hsplit ▸ List.mem_cons_self)
        rw [List.mem_cons, not_or]
        exact ⟨fun heq => hseparator (by rw [heq, beq_self_eq_true]), hfirst⟩
      · exact notMem_of_mem_splitOn (hsplit ▸ List.mem_cons_of_mem _ hrest)

/-! ## Lines -/

theorem fileLines_append {line rest : List UInt8} (h : kNewline ∉ line) :
    fileLines (line ++ kNewline :: rest) = line :: fileLines rest := by
  induction line with
  | nil => rw [List.nil_append, fileLines, if_pos rfl]
  | cons octet line ih =>
    rw [List.mem_cons, not_or] at h
    rw [List.cons_append, fileLines, if_neg (Ne.symm h.1), ih h.2]

theorem fileLines_of_notMem {line : List UInt8} (h : kNewline ∉ line) (hne : line ≠ []) :
    fileLines line = [line] := by
  induction line with
  | nil => exact absurd rfl hne
  | cons octet line ih =>
    rw [List.mem_cons, not_or] at h
    rw [fileLines, if_neg (Ne.symm h.1)]
    rcases eq_or_ne line [] with rfl | hline
    · rfl
    · rw [ih h.2 hline]

end L2Flow
