import Stencil.Text.Blank

/-!
# Comments and trailing commas

Documents may carry `//` comments up to the end of their line, `/* */` comments, and a comma after
the last item of a container. `stripComments` removes all three and leaves the strings alone. A line
comment leaves its line end, a block comment its line ends and one space, so that every remaining
character stays on its line.
-/

namespace Stencil.Json

/-- What follows a line comment: the text from the end of its line on. -/
def afterLine (cs : List Char) : List Char :=
  cs.dropWhile (· != '\n')

/-- What follows a block comment whose opening has been seen; nothing if it is never closed. -/
def afterBlock : List Char → List Char
  | [] => []
  | '*' :: '/' :: rest => rest
  | _ :: rest => afterBlock rest

/-- The line ends inside a block comment whose opening has been seen. -/
def blockLines : List Char → List Char
  | [] => []
  | '*' :: '/' :: _ => []
  | c :: rest => if c == '\n' then '\n' :: blockLines rest else blockLines rest

/-- The part of a string literal after its opening quote, with the closing quote if there is one. -/
def literalBody : List Char → List Char
  | [] => []
  | '\\' :: c :: rest => '\\' :: c :: literalBody rest
  | c :: rest => if c == '"' then ['"'] else c :: literalBody rest

/-- What follows a string literal whose opening quote has been seen. -/
def afterLiteral : List Char → List Char
  | [] => []
  | '\\' :: _ :: rest => afterLiteral rest
  | c :: rest => if c == '"' then rest else afterLiteral rest

theorem length_afterLine_le (cs : List Char) : (afterLine cs).length ≤ cs.length :=
  (List.dropWhile_sublist _).length_le

theorem length_afterBlock_le (cs : List Char) : (afterBlock cs).length ≤ cs.length := by
  fun_induction afterBlock cs <;> simp <;> omega

theorem length_afterLiteral_le (cs : List Char) : (afterLiteral cs).length ≤ cs.length := by
  fun_induction afterLiteral cs <;> simp <;> omega

/-- Whether only blanks and comments stand before a closing bracket. -/
def closesNext : List Char → Bool
  | [] => false
  | '/' :: '/' :: rest => closesNext (afterLine rest)
  | '/' :: '*' :: rest => closesNext (afterBlock rest)
  | c :: rest => if Text.isBlank c then closesNext rest else c == '}' || c == ']'
termination_by cs => cs.length
decreasing_by
  · have := length_afterLine_le rest
    simp
    omega
  · have := length_afterBlock_le rest
    simp
    omega
  · simp

/-- A text without its comments and trailing commas. -/
def stripChars : List Char → List Char
  | [] => []
  | '/' :: '/' :: rest => stripChars (afterLine rest)
  | '/' :: '*' :: rest => blockLines rest ++ ' ' :: stripChars (afterBlock rest)
  | c :: rest =>
    if c == '"' then '"' :: literalBody rest ++ stripChars (afterLiteral rest)
    else if c == ',' && closesNext rest then stripChars rest
    else c :: stripChars rest
termination_by cs => cs.length
decreasing_by
  · have := length_afterLine_le rest
    simp
    omega
  · have := length_afterBlock_le rest
    simp
    omega
  · have := length_afterLiteral_le rest
    simp
    omega
  · simp
  · simp

/-- A text without its comments and trailing commas. -/
def stripComments (text : String) : String :=
  String.ofList (stripChars text.toList)

end Stencil.Json
