import Mathlib.Algebra.Ring.Nat
import Mathlib.Data.List.Basic

/-!
# Numerals and lines of text

Decimal and hexadecimal numerals with the paddings of a format string, and
lines that carry a value behind a label.  Numerals are read back by one
function for both bases and both cases of the letters; a line gives its value
back where the value has no newline.
-/

namespace Numerals

abbrev Text := List Char

/-! ## Numerals -/

def decimal (n : Nat) : Text := Nat.toDigits 10 n

def integer (i : Int) : Text :=
  if i < 0 then '-' :: decimal i.natAbs else decimal i.natAbs

def lowerHex (n : Nat) : Text := Nat.toDigits 16 n

def upperHex (n : Nat) : Text := (Nat.toDigits 16 n).map Char.toUpper

def padLeft (fill : Char) (width : Nat) (text : Text) : Text :=
  List.replicate (width - text.length) fill ++ text

def padRight (width : Nat) (text : Text) : Text :=
  text ++ List.replicate (width - text.length) ' '

/-- The digits after ten are letters of either case. -/
def digitValue (c : Char) : Nat :=
  if c.toNat < 65 then c.toNat - 48
  else if c.toNat < 97 then c.toNat - 55
  else c.toNat - 87

def valueIn (base : Nat) (text : Text) : Nat :=
  text.foldl (fun value c => base * value + digitValue c) 0

theorem valueIn_concat (base : Nat) (text : Text) (c : Char) :
    valueIn base (text ++ [c]) = base * valueIn base text + digitValue c :=
  List.foldl_concat ..

/-- Reading a numeral back, where `letter` may change the case of a digit. -/
theorem valueIn_map_toDigits {base : Nat} (letter : Char → Char)
    (small : 1 < base) (digits : base ≤ 16)
    (kept : ∀ d < 16, digitValue (letter d.digitChar) = d) (n : Nat) :
    valueIn base ((Nat.toDigits base n).map letter) = n := by
  induction n using Nat.strongRecOn with
  | ind n ih =>
      rw [Nat.toDigits_eq_if small]
      split
      · rename_i below
        have digit := kept n (Nat.lt_of_lt_of_le below digits)
        simp only [List.map_singleton, valueIn, List.foldl_cons,
          List.foldl_nil, Nat.mul_zero, Nat.zero_add, digit]
      · rename_i above
        have less : n / base < n := Nat.div_lt_self (by omega) small
        have digit := kept (n % base)
          (Nat.lt_of_lt_of_le (Nat.mod_lt n (by omega)) digits)
        rw [List.map_append, List.map_singleton, valueIn_concat, ih _ less,
          digit]
        exact Nat.div_add_mod n base

theorem valueIn_decimal (n : Nat) : valueIn 10 (decimal n) = n := by
  have read := valueIn_map_toDigits id (by decide : 1 < 10) (by decide)
    (by decide) n
  rwa [List.map_id] at read

theorem valueIn_lowerHex (n : Nat) : valueIn 16 (lowerHex n) = n := by
  have read := valueIn_map_toDigits id (by decide : 1 < 16) (by decide)
    (by decide) n
  rwa [List.map_id] at read

theorem valueIn_upperHex (n : Nat) : valueIn 16 (upperHex n) = n :=
  valueIn_map_toDigits _ (by decide) (by decide) (by decide) n

/-- Leading zeros do not count. -/
theorem valueIn_padLeft (base width : Nat) (text : Text) :
    valueIn base (padLeft '0' width text) = valueIn base text := by
  have zeros (count : Nat) : valueIn base (List.replicate count '0') = 0 := by
    induction count with
    | zero => rfl
    | succ count ih =>
        rw [List.replicate_succ', valueIn_concat, ih]
        rfl
  rw [padLeft, valueIn, List.foldl_append]
  exact congrArg (fun start => text.foldl _ start) (zeros _)

theorem decimal_injective {m n : Nat} (same : decimal m = decimal n) :
    m = n := by
  rw [← valueIn_decimal m, same, valueIn_decimal]

theorem padded_injective {width m n : Nat}
    (same : padLeft '0' width (upperHex m) =
      padLeft '0' width (upperHex n)) : m = n := by
  have values := congrArg (valueIn 16) same
  rwa [valueIn_padLeft, valueIn_padLeft, valueIn_upperHex,
    valueIn_upperHex] at values

/-! ## The characters of a numeral -/

/-- A digit, or a letter that is one of base 16. -/
def IsNumeral (c : Char) : Prop :=
  c ∈ "0123456789ABCDEFabcdef".toList

instance (c : Char) : Decidable (IsNumeral c) :=
  inferInstanceAs (Decidable (_ ∈ _))

theorem isNumeral_of_mem_map_toDigits {base : Nat} {letter : Char → Char}
    (small : 1 < base) (digits : base ≤ 16)
    (kept : ∀ d < 16, IsNumeral (letter d.digitChar)) {n : Nat} {c : Char}
    (member : c ∈ (Nat.toDigits base n).map letter) : IsNumeral c := by
  induction n using Nat.strongRecOn with
  | ind n ih =>
      rw [Nat.toDigits_eq_if small] at member
      split at member
      · rename_i below
        rw [List.map_singleton, List.mem_singleton] at member
        rw [member]
        exact kept n (Nat.lt_of_lt_of_le below digits)
      · rename_i above
        have less : n / base < n := Nat.div_lt_self (by omega) small
        rw [List.map_append, List.map_singleton, List.mem_append,
          List.mem_singleton] at member
        rcases member with front | last
        · exact ih _ less front
        · rw [last]
          exact kept _ (Nat.lt_of_lt_of_le (Nat.mod_lt n (by omega)) digits)

theorem isNumeral_decimal {n : Nat} {c : Char} (member : c ∈ decimal n) :
    IsNumeral c := by
  rw [decimal, ← List.map_id (Nat.toDigits 10 n)] at member
  exact isNumeral_of_mem_map_toDigits (by decide) (by decide) (by decide)
    member

theorem isNumeral_upperHex {n : Nat} {c : Char} (member : c ∈ upperHex n) :
    IsNumeral c :=
  isNumeral_of_mem_map_toDigits (by decide) (by decide) (by decide) member

theorem isNumeral_padLeft {width : Nat} {text : Text} {c : Char}
    (numeral : ∀ d ∈ text, IsNumeral d)
    (member : c ∈ padLeft '0' width text) : IsNumeral c := by
  rcases List.mem_append.mp member with zeros | digits
  · rw [List.eq_of_mem_replicate zeros]
    decide
  · exact numeral c digits

/-- A numeral that fits its width is as long as the width. -/
theorem length_padLeft_map_toDigits {base width n : Nat}
    (letter : Char → Char) (small : 1 < base) (positive : 0 < width)
    (fits : n < base ^ width) :
    (padLeft '0' width ((Nat.toDigits base n).map letter)).length =
      width := by
  have short : ((Nat.toDigits base n).map letter).length ≤ width := by
    rw [List.length_map]
    exact (Nat.length_toDigits_le_iff small positive).mpr fits
  rw [padLeft, List.length_append, List.length_replicate]
  omega

theorem length_padLeft_upperHex {width n : Nat} (positive : 0 < width)
    (fits : n < 16 ^ width) :
    (padLeft '0' width (upperHex n)).length = width :=
  length_padLeft_map_toDigits _ (by decide) positive fits

theorem length_padLeft_lowerHex {width n : Nat} (positive : 0 < width)
    (fits : n < 16 ^ width) :
    (padLeft '0' width (lowerHex n)).length = width := by
  rw [lowerHex, ← List.map_id (Nat.toDigits 16 n)]
  exact length_padLeft_map_toDigits id (by decide) positive fits

theorem integer_injective {i j : Int} (same : integer i = integer j) :
    i = j := by
  have unsigned (n m : Nat) : '-' :: decimal n ≠ decimal m := by
    intro equality
    have member : '-' ∈ decimal m := by
      rw [← equality]
      exact List.mem_cons_self
    exact absurd (isNumeral_decimal member) (by decide)
  rw [integer, integer] at same
  split at same
  · split at same
    · have abs := decimal_injective (List.cons.inj same).2
      omega
    · exact (unsigned _ _ same).elim
  · split at same
    · exact (unsigned _ _ same.symm).elim
    · have abs := decimal_injective same
      omega

/-- Pieces of one length are told apart in their concatenation. -/
theorem flatMap_injective {A : Type} {piece : A → Text} {width : Nat}
    (long : ∀ a, (piece a).length = width) (positive : 0 < width)
    (injective : ∀ a b, piece a = piece b → a = b) {left right : List A}
    (same : left.flatMap piece = right.flatMap piece) : left = right := by
  have nonempty (a : A) (rest : Text) : piece a ++ rest ≠ [] := by
    intro empty
    have none := congrArg List.length (List.append_eq_nil_iff.mp empty).1
    rw [long a, List.length_nil] at none
    omega
  induction left generalizing right with
  | nil =>
      cases right with
      | nil => rfl
      | cons b right => exact (nonempty b _ same.symm).elim
  | cons a left ih =>
      cases right with
      | nil => exact (nonempty a _ same).elim
      | cons b right =>
          rw [List.flatMap_cons, List.flatMap_cons] at same
          obtain ⟨here, rest⟩ := List.append_inj same (by rw [long, long])
          rw [injective a b here, ih rest]

/-! ## Values between delimiters -/

/-- A value ends at the first delimiter behind it. -/
theorem delimited_inj {A : Type} {delimiter : A}
    {left left' right right' : List A}
    (clean : delimiter ∉ left) (clean' : delimiter ∉ left')
    (same : left ++ delimiter :: right = left' ++ delimiter :: right') :
    left = left' ∧ right = right' := by
  induction left generalizing left' with
  | nil =>
      cases left' with
      | nil => exact ⟨rfl, (List.cons.inj same).2⟩
      | cons head tail =>
          exact (clean' (List.mem_cons.mpr (.inl (List.cons.inj same).1))).elim
  | cons head tail ih =>
      cases left' with
      | nil =>
          have equality := (List.cons.inj same).1
          exact (clean (List.mem_cons.mpr (.inl equality.symm))).elim
      | cons head' tail' =>
          obtain ⟨rfl, rest⟩ := List.cons.inj same
          obtain ⟨rfl, behind⟩ := ih
            (fun member => clean (List.mem_cons_of_mem _ member))
            (fun member => clean' (List.mem_cons_of_mem _ member)) rest
          exact ⟨rfl, behind⟩

/-- A label and a value on a line of their own. -/
def line (label value : Text) : Text :=
  label ++ value ++ ['\n']

theorem line_inj {label value value' rest rest' : Text}
    (clean : '\n' ∉ value) (clean' : '\n' ∉ value')
    (same : line label value ++ rest = line label value' ++ rest') :
    value = value' ∧ rest = rest' := by
  simp only [line, List.append_assoc, List.append_cancel_left_eq,
    List.singleton_append] at same
  exact delimited_inj clean clean' same

/-! ## Texts of whole lines -/

/-- Nothing, or a text that ends with its last line. -/
def Terminated (text : Text) : Prop :=
  text = [] ∨ ∃ front, text = front ++ ['\n']

theorem terminated_nil : Terminated [] :=
  .inl rfl

theorem terminated_concat (front : Text) : Terminated (front ++ ['\n']) :=
  .inr ⟨front, rfl⟩

theorem Terminated.append {first second : Text} (ended : Terminated first)
    (ended' : Terminated second) : Terminated (first ++ second) := by
  rcases ended' with rfl | ⟨front, rfl⟩
  · rwa [List.append_nil]
  · rw [← List.append_assoc]
    exact terminated_concat _

theorem terminated_flatMap {A : Type} {piece : A → Text}
    (ended : ∀ a, Terminated (piece a)) (pieces : List A) :
    Terminated (pieces.flatMap piece) := by
  induction pieces with
  | nil => exact terminated_nil
  | cons a pieces ih =>
      rw [List.flatMap_cons]
      exact (ended a).append ih

theorem terminated_append_line (front label value : Text) :
    Terminated (front ++ line label value) := by
  rw [line, ← List.append_assoc]
  exact terminated_concat _

/-- The text of these lines. -/
def joined (lines : List Text) : Text :=
  lines.flatMap fun line => line ++ ['\n']

/-- No line has a line end of its own. -/
def Clean (lines : List Text) : Prop :=
  ∀ line ∈ lines, '\n' ∉ line

theorem clean_nil : Clean [] :=
  List.forall_mem_nil _

theorem Clean.cons {line : Text} {lines : List Text} (free : '\n' ∉ line)
    (clean : Clean lines) : Clean (line :: lines) :=
  List.forall_mem_cons.mpr ⟨free, clean⟩

theorem clean_singleton {line : Text} (free : '\n' ∉ line) : Clean [line] :=
  clean_nil.cons free

theorem joined_cons (line : Text) (lines : List Text) :
    joined (line :: lines) = line ++ '\n' :: joined lines := by
  rw [joined, List.flatMap_cons, List.append_assoc, List.singleton_append]
  rfl

theorem joined_append (first second : List Text) :
    joined (first ++ second) = joined first ++ joined second :=
  List.flatMap_append

theorem Clean.append {first second : List Text} (clean : Clean first)
    (clean' : Clean second) : Clean (first ++ second) := by
  intro line member
  rcases List.mem_append.mp member with early | late
  · exact clean line early
  · exact clean' line late

/-- The lines are read back from their text. -/
theorem joined_injective {lines lines' : List Text} (clean : Clean lines)
    (clean' : Clean lines') (same : joined lines = joined lines') :
    lines = lines' := by
  have nonempty (line rest : Text) : [] ≠ line ++ '\n' :: rest := by
    intro empty
    cases (List.append_eq_nil_iff.mp empty.symm).2
  induction lines generalizing lines' with
  | nil =>
      cases lines' with
      | nil => rfl
      | cons line' lines' =>
          rw [joined_cons] at same
          exact (nonempty _ _ same).elim
  | cons line lines ih =>
      cases lines' with
      | nil =>
          rw [joined_cons] at same
          exact (nonempty _ _ same.symm).elim
      | cons line' lines' =>
          rw [joined_cons, joined_cons] at same
          obtain ⟨rfl, rest⟩ := delimited_inj
            (clean line List.mem_cons_self)
            (clean' line' List.mem_cons_self) same
          rw [ih (fun other member =>
              clean other (List.mem_cons_of_mem _ member))
            (fun other member =>
              clean' other (List.mem_cons_of_mem _ member)) rest]

/-- Every text is lines and an unfinished last one. -/
theorem exists_joined (text : Text) :
    ∃ lines last, Clean lines ∧ '\n' ∉ last ∧ text = joined lines ++ last := by
  induction text with
  | nil => exact ⟨[], [], clean_nil, List.not_mem_nil, rfl⟩
  | cons c text ih =>
      obtain ⟨lines, last, clean, open', rfl⟩ := ih
      by_cases lineEnd : c = '\n'
      · refine ⟨[] :: lines, last, clean.cons List.not_mem_nil, open', ?_⟩
        rw [joined_cons, lineEnd]
        rfl
      · have kept (line : Text) (free : '\n' ∉ line) : '\n' ∉ c :: line := by
          intro member
          rcases List.mem_cons.mp member with here | there
          · exact lineEnd here.symm
          · exact free there
        cases lines with
        | nil =>
            exact ⟨[], c :: last, clean_nil, kept last open', rfl⟩
        | cons line lines =>
            obtain ⟨first, others⟩ := List.forall_mem_cons.mp clean
            refine ⟨(c :: line) :: lines, last, ?_, open', ?_⟩
            · exact Clean.cons (kept line first) others
            · rw [joined_cons, joined_cons]
              rfl

theorem Terminated.exists_lines {text : Text} (ended : Terminated text) :
    ∃ lines, Clean lines ∧ text = joined lines := by
  rcases ended with rfl | ⟨front, rfl⟩
  · exact ⟨[], clean_nil, rfl⟩
  · obtain ⟨lines, last, clean, open', rfl⟩ := exists_joined front
    refine ⟨lines ++ [last], ?_, ?_⟩
    · exact clean.append (clean_singleton open')
    · rw [joined_append, joined_cons, List.append_assoc]
      rfl

/-- Marked lines at the end are told apart from what is in front of them by
the last of those. -/
theorem append_marked_inj {A : Type} {marked : A → Prop}
    {front front' marks marks' : List A}
    (all : ∀ a ∈ marks, marked a) (all' : ∀ a ∈ marks', marked a)
    (last : ∀ a, front.getLast? = some a → ¬ marked a)
    (last' : ∀ a, front'.getLast? = some a → ¬ marked a)
    (same : front ++ marks = front' ++ marks') : front = front' := by
  have overlap {left right middle marks : List A}
      (longer : right = left ++ middle)
      (inMarks : ∀ a ∈ middle, a ∈ marks) (all : ∀ a ∈ marks, marked a)
      (last : ∀ a, right.getLast? = some a → ¬ marked a) :
      left = right := by
    rcases List.eq_nil_or_concat' middle with rfl | ⟨middle', a, rfl⟩
    · rw [longer, List.append_nil]
    · have final : right.getLast? = some a := by
        rw [longer, ← List.append_assoc, List.getLast?_concat]
      have member : a ∈ marks := inMarks a (by simp)
      exact (last a final (all a member)).elim
  rcases List.append_eq_append_iff.mp same with
    ⟨middle, longer, split⟩ | ⟨middle, longer, split⟩
  · exact overlap longer (fun a member => by rw [split]; simp [member]) all
      last'
  · exact (overlap longer (fun a member => by rw [split]; simp [member])
      all' last).symm

end Numerals
