/-!
# Quoted text

A text between two quotes, a quote inside it written twice. The same rule serves SQL
identifiers and SQL strings, which differ in the quote alone.
-/

namespace SqlRecords.Text

/-- A text with every occurrence of the quote written twice. -/
def doubled (quote : Char) : List Char → List Char
  | [] => []
  | c :: rest => if c = quote then quote :: quote :: doubled quote rest else c :: doubled quote rest

/-- A text between quotes. -/
def enclosed (quote : Char) (s : List Char) : List Char := quote :: doubled quote s ++ [quote]

@[simp] theorem doubled_nil (quote : Char) : doubled quote [] = [] := rfl

theorem doubled_append (quote : Char) (s t : List Char) :
    doubled quote (s ++ t) = doubled quote s ++ doubled quote t := by
  induction s with
  | nil => rfl
  | cons c rest ih => by_cases h : c = quote <;> simp [doubled, h, ih]

end SqlRecords.Text
