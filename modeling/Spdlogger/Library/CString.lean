import Mathlib.Data.List.TakeWhile
import Mathlib.Order.Lattice
import Mathlib.Data.Int.Order.Basic

namespace cstring

/-- The white space of the "C" locale. -/
def isspace (c : Char) : Bool := c.toNat = 32 || 9 ≤ c.toNat && c.toNat ≤ 13

/-- The number that decimal digits stand for. -/
def decimalValue (digits : List Char) : Nat :=
  digits.foldl (fun value digit => 10 * value + (digit.toNat - 48)) 0

/-- An optional sign, whether it is a minus, and what follows it. -/
def splitSign : List Char → Bool × List Char
  | '-' :: rest => (true, rest)
  | '+' :: rest => (false, rest)
  | text => (false, text)

/-- The number with its sign. -/
def applySign (negative : Bool) (magnitude : Nat) : Int := if negative then -magnitude else magnitude

/-- The longest numeral a text begins with, and the text after it. -/
def leading (text : List Char) : Option (Int × List Char) :=
  let (negative, unsigned) := splitSign (text.dropWhile isspace)
  let digits := unsigned.takeWhile Char.isDigit
  if digits.isEmpty then none
  else some (applySign negative (decimalValue digits), unsigned.dropWhile Char.isDigit)

/-- What `strtol` returns and where it leaves the end pointer, which is given by the
text it points to. -/
structure Converted where
  value : Int
  rest : List Char
  deriving DecidableEq, Repr

/-- `strtol(nptr, &end, 10)` for a `long` of the given range. -/
def strtol (low high : Int) (nptr : List Char) : Converted :=
  match leading nptr with
  | none => ⟨0, nptr⟩
  | some (number, rest) => ⟨max low (min high number), rest⟩

/-- The text is a numeral followed by something that does not go on with a digit. -/
structure Leads (text : List Char) (number : Int) (rest : List Char) : Prop where
  parts : ∃ spaces sign digits, text = spaces ++ (sign ++ (digits ++ rest)) ∧
    (∀ c ∈ spaces, isspace c = true) ∧ (sign = [] ∨ sign = [ '+'] ∨ sign = [ '-']) ∧
    digits ≠ [] ∧ (∀ c ∈ digits, c.isDigit = true) ∧
    number = applySign (sign = [ '-']) (decimalValue digits)
  ended : ∀ c ∈ rest.head?, c.isDigit = false

/-- A digit is not skipped as white space. -/
theorem isspace_of_isDigit {c : Char} (hdigit : c.isDigit = true) : isspace c = false := by
  simp only [Char.isDigit, Bool.and_eq_true, decide_eq_true_eq, ge_iff_le, UInt32.le_iff_toNat_le] at hdigit
  have hlow : 48 ≤ c.toNat := hdigit.1
  simp only [isspace, Bool.or_eq_false_iff, Bool.and_eq_false_iff, decide_eq_false_iff_not]
  omega

/-- Before a digit there is no sign to split off. -/
theorem splitSign_of_isDigit {c : Char} (hdigit : c.isDigit = true) (rest : List Char) :
    splitSign (c :: rest) = (false, c :: rest) := by
  unfold splitSign
  split
  · rename_i heq
    cases heq
    cases hdigit
  · rename_i heq
    cases heq
    cases hdigit
  · rfl

/-- The sign that was split off. -/
theorem exists_sign (text : List Char) : ∃ sign, (sign = [] ∨ sign = [ '+'] ∨ sign = [ '-']) ∧
    text = sign ++ (splitSign text).2 ∧ (splitSign text).1 = decide (sign = [ '-']) := by
  fun_cases splitSign text with
  | case1 rest => exact ⟨[ '-'], by simp, rfl, rfl⟩
  | case2 rest => exact ⟨[ '+'], by simp, rfl, rfl⟩
  | case3 => exact ⟨[], by simp, rfl, rfl⟩

/-- Dropping a text's first part as far as it goes. -/
theorem dropWhile_append_cons {p : Char → Bool} {part : List Char} (hpart : ∀ c ∈ part, p c = true)
    {head : Char} (hhead : p head = false) (rest : List Char) :
    (part ++ head :: rest).dropWhile p = head :: rest := by
  rw [List.dropWhile_append_of_pos hpart, List.dropWhile_cons_of_neg (by simp [hhead])]

/-- The digits end where the text goes on without one. -/
theorem span_digits {digits rest : List Char} (hdigits : ∀ c ∈ digits, c.isDigit = true)
    (hended : ∀ c ∈ rest.head?, c.isDigit = false) :
    (digits ++ rest).takeWhile Char.isDigit = digits ∧
      (digits ++ rest).dropWhile Char.isDigit = rest := by
  rw [List.takeWhile_append_of_pos hdigits, List.dropWhile_append_of_pos hdigits]
  cases rest with
  | nil => simp
  | cons head rest =>
    have hhead : head.isDigit = false := hended head rfl
    simp [hhead]

/-- A number that leads the text is what `leading` finds. -/
theorem Leads.leading_eq {text rest : List Char} {number : Int} (h : Leads text number rest) :
    leading text = some (number, rest) := by
  obtain ⟨⟨spaces, sign, digits, rfl, hspaces, hsign, hdigits, hall, rfl⟩, hended⟩ := h
  obtain ⟨htake, hdrop⟩ := span_digits hall hended
  have hsubject : splitSign ((spaces ++ (sign ++ (digits ++ rest))).dropWhile isspace) =
      (decide (sign = [ '-']), digits ++ rest) := by
    obtain rfl | rfl | rfl := hsign
    · obtain ⟨first, others, rfl⟩ := List.exists_cons_of_ne_nil hdigits
      have hfirst := hall first List.mem_cons_self
      rw [List.nil_append, List.cons_append,
        dropWhile_append_cons hspaces (isspace_of_isDigit hfirst), splitSign_of_isDigit hfirst]
      rfl
    · rw [List.singleton_append, dropWhile_append_cons hspaces (by decide)]
      rfl
    · rw [List.singleton_append, dropWhile_append_cons hspaces (by decide)]
      rfl
  unfold leading
  rw [hsubject]
  simp only [htake, hdrop, List.isEmpty_iff, if_neg hdigits]

/-- What `leading` finds leads the text. -/
theorem leads_of_leading_eq {text rest : List Char} {number : Int}
    (h : leading text = some (number, rest)) : Leads text number rest := by
  have hspaces := List.takeWhile_append_dropWhile (p := isspace) (l := text)
  obtain ⟨sign, hkind, htext, hnegative⟩ := exists_sign (text.dropWhile isspace)
  unfold leading at h
  simp only [List.isEmpty_iff, Option.ite_none_left_eq_some, Option.some.injEq, Prod.mk.injEq] at h
  obtain ⟨hdigits, rfl, rfl⟩ := h
  refine ⟨⟨text.takeWhile isspace, sign, _, ?_, ?_, hkind, hdigits, ?_, ?_⟩, ?_⟩
  · rw [List.takeWhile_append_dropWhile, ← htext, hspaces]
  · exact fun c hc => List.mem_takeWhile_imp hc
  · exact fun c hc => List.mem_takeWhile_imp hc
  · rw [hnegative]
  · intro c hc
    have hhead := List.head?_dropWhile_not Char.isDigit (splitSign (text.dropWhile isspace)).2
    rw [Option.mem_def.mp hc] at hhead
    simpa using hhead

/-- `leading` finds exactly the number that leads the text. -/
theorem leading_eq_some_iff {text rest : List Char} {number : Int} :
    leading text = some (number, rest) ↔ Leads text number rest :=
  ⟨leads_of_leading_eq, Leads.leading_eq⟩

/-- A text begins with one numeral at most. -/
theorem Leads.unique {text rest other : List Char} {number second : Int}
    (hfirst : Leads text number rest) (hsecond : Leads text second other) :
    number = second ∧ rest = other := by
  have heq := hfirst.leading_eq.symm.trans hsecond.leading_eq
  simpa using heq

/-- A numeral takes up some of the text. -/
theorem Leads.rest_ne {text rest : List Char} {number : Int} (h : Leads text number rest) :
    rest ≠ text := by
  obtain ⟨⟨spaces, sign, digits, rfl, _, _, hdigits, _⟩, _⟩ := h
  have hpositive := List.length_pos_iff.mpr hdigits
  intro hsame
  have hlength := congrArg List.length hsame
  simp only [List.length_append] at hlength
  omega

/-- `strtol` converts the numeral and stops after it, or leaves the end pointer at the start. -/
theorem strtol_cases (low high : Int) (text : List Char) :
    (∃ number rest, Leads text number rest ∧
      strtol low high text = ⟨max low (min high number), rest⟩) ∨
    (∀ number rest, ¬ Leads text number rest) ∧ strtol low high text = ⟨0, text⟩ := by
  unfold strtol
  cases hleading : leading text with
  | none =>
    refine .inr ⟨fun number rest hleads => ?_, rfl⟩
    rw [hleads.leading_eq] at hleading
    cases hleading
  | some found => exact .inl ⟨found.1, found.2, leads_of_leading_eq hleading, rfl⟩

/-- `std::getline(stream, token, delimiter)`: the token and the rest of the stream. It
fails at the end of the stream. -/
def getline (delimiter : Char) (stream : List Char) : Option (List Char × List Char) :=
  if stream.isEmpty then none
  else
    some (stream.takeWhile (· ≠ delimiter), (stream.dropWhile (· ≠ delimiter)).drop 1)

/-- `getline` uses up some of its stream. -/
theorem length_of_getline {delimiter : Char} {stream token rest : List Char}
    (h : getline delimiter stream = some (token, rest)) : rest.length < stream.length := by
  unfold getline at h
  split at h
  · cases h
  · rename_i hne
    cases h
    have hle := List.length_dropWhile_le (· ≠ delimiter) stream
    have hpositive := List.length_pos_iff.mpr (List.isEmpty_iff.not.mp hne)
    rw [List.length_drop]
    omega

/-- The tokens of a loop over `std::getline`. -/
def getlines (delimiter : Char) (stream : List Char) : List (List Char) :=
  match _hline : getline delimiter stream with
  | none => []
  | some (token, rest) => token :: getlines delimiter rest
termination_by stream.length
decreasing_by exact length_of_getline _hline

/-- `getline` takes the first piece of what is left. An empty piece at the end is not read. -/
theorem splitOn_of_getline {delimiter : Char} {stream token rest : List Char}
    (h : getline delimiter stream = some (token, rest)) :
    stream.splitOn delimiter = token :: rest.splitOn delimiter ∨
      rest = [] ∧ stream.splitOn delimiter = [token] := by
  unfold getline at h
  split at h
  · cases h
  · simp only [Option.some.injEq, Prod.mk.injEq] at h
    obtain ⟨rfl, rfl⟩ := h
    have hfree : delimiter ∉ stream.takeWhile (· ≠ delimiter) :=
      fun hmem => by simpa using List.mem_takeWhile_imp hmem
    have hparts := List.takeWhile_append_dropWhile (p := (· ≠ delimiter)) (l := stream)
    cases hdrop : stream.dropWhile (· ≠ delimiter) with
    | nil =>
      rw [hdrop, List.append_nil] at hparts
      refine .inr ⟨rfl, ?_⟩
      rw [hparts] at hfree ⊢
      exact List.splitOn_eq_singleton hfree
    | cons head others =>
      have hhead := List.head?_dropWhile_not (· ≠ delimiter) stream
      rw [hdrop] at hhead
      obtain rfl : head = delimiter := by simpa using hhead
      rw [hdrop] at hparts
      refine .inl ?_
      conv_lhs => rw [← hparts]
      exact List.splitOn_append_cons_self_of_not_mem hfree others

/-- But for empty ones, the tokens are the pieces between the delimiters. -/
theorem mem_getlines_iff {delimiter : Char} {stream piece : List Char} (hne : piece ≠ []) :
    piece ∈ getlines delimiter stream ↔ piece ∈ stream.splitOn delimiter := by
  fun_induction getlines delimiter stream with
  | case1 stream hline =>
    have hempty : stream = [] := by
      unfold getline at hline
      split at hline
      · simp_all
      · cases hline
    simp [hempty, List.splitOn_nil, hne]
  | case2 stream token rest hline ih =>
    rw [List.mem_cons, ih]
    obtain hsplit | ⟨rfl, hsplit⟩ := splitOn_of_getline hline
    · rw [hsplit, List.mem_cons]
    · simp [hsplit, List.splitOn_nil, hne]

end cstring
