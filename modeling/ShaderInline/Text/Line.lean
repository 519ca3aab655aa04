/-!
# Lines

A text is cut after each newline. Every line keeps its terminator, so the lines of a text join to
the text again, and only the last line may lack one. The empty text has no lines.
-/
namespace ShaderInline.Text

def lineChars : List Char → List (List Char)
  | [] => []
  | c :: cs =>
    if c = '\n' then [c] :: lineChars cs
    else match lineChars cs with
      | [] => [[c]]
      | line :: lines => (c :: line) :: lines

/-- The lines of a text, each with its terminator. -/
def lines (text : String) : List String := (lineChars text.toList).map String.ofList

/-- A line of a text, counted from one. -/
def line? (text : String) : Nat → Option String
  | 0 => none
  | index + 1 => (lines text)[index]?

/-- A text of one line with a newline at its end, added if it lacks one. -/
def terminated (line : String) : String :=
  if line.toList.getLast? = some '\n' then line else line ++ "\n"

@[simp] theorem flatten_lineChars (cs : List Char) : (lineChars cs).flatten = cs := by
  induction cs with
  | nil => rfl
  | cons c cs ih =>
    unfold lineChars
    split
    · simp [ih]
    · split <;> simp_all

/-- Nothing is lost by cutting a text into lines. -/
theorem join_lines (text : String) : String.join (lines text) = text := by
  have h : ∀ css : List (List Char),
      String.join (css.map String.ofList) = String.ofList css.flatten := by
    intro css
    induction css with
    | nil => rfl
    | cons cs css ih => simp [String.join_cons, ih]
  simp [lines, h]

theorem line?_of_eq_append {text line : String} {before following : List String}
    (h : lines text = before ++ line :: following) :
    line? text (before.length + 1) = some line := by
  simp [line?, h]

theorem mem_lines_of_line? {text line : String} {number : Nat}
    (h : line? text number = some line) : line ∈ lines text := by
  cases number with
  | zero => cases h
  | succ index => exact List.mem_of_getElem? h

end ShaderInline.Text
