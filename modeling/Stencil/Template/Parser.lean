import Stencil.Template.Literal
import Stencil.Template.Node
import Stencil.Text.Blank

/-!
# Reading templates

Text is copied up to the next `{{`. What follows is a comment, if it starts with `/*` at once, or an
action: a string literal alone, or a name and its string arguments, with blanks between all of them,
up to `}}`.

A `-` with a blank beside it inside the braces removes the blanks of the text on its side. A comment
may also follow `{{-` and a single blank.

A template is read as a whole before anything is evaluated; the first malformed action decides the
error, and the line of its opening braces is the line of the error.
-/

namespace Stencil.Template

/-! ## The words of an action -/

/-- A word of an action. -/
inductive Word where
  | name (s : String)
  | text (s : String)
  deriving DecidableEq

/-- A character that may start a name. -/
def isNameStart (c : Char) : Bool :=
  ('a' ≤ c && c ≤ 'z') || ('A' ≤ c && c ≤ 'Z') || c == '_'

/-- A character that may continue a name. -/
def isNameChar (c : Char) : Bool :=
  isNameStart c || ('0' ≤ c && c ≤ '9')

/-- The mark around raw strings. -/
def rawMark : Char := '\x60'

/-- A raw string after its opening mark, and the text after it. -/
def readRaw (cs : List Char) : Except SyntaxFault (String × List Char) :=
  match cs.dropWhile (· != rawMark) with
  | [] => .error .unterminatedRaw
  | _ :: rest => .ok (String.ofList (cs.takeWhile (· != rawMark)), rest)

/-- The word that starts with the character `c`, and the text after it. -/
def readWord (c : Char) (rest : List Char) : Except SyntaxFault (Word × List Char) :=
  if c == '"' then (Literal.read rest).map fun r => (.text r.1, r.2)
  else if c == rawMark then (readRaw rest).map fun r => (.text r.1, r.2)
  else if isNameStart c then
    .ok (.name (String.ofList (c :: rest.takeWhile isNameChar)), rest.dropWhile isNameChar)
  else .error (.unexpectedCharacter c)

/-- Reading a word does not lengthen the text after its first character. -/
theorem length_readWord_le {c : Char} {cs rest : List Char} {w : Word}
    (h : readWord c cs = .ok (w, rest)) : rest.length ≤ cs.length := by
  unfold readWord at h
  split at h
  · obtain ⟨_, hr, ⟨⟩⟩ := map_eq_ok_iff.1 h
    exact Literal.length_read_le hr
  · split at h
    · obtain ⟨_, hr, ⟨⟩⟩ := map_eq_ok_iff.1 h
      unfold readRaw at hr
      split at hr
      · cases hr
      · rename_i tail heq
        cases hr
        have := congrArg List.length heq
        have := (List.dropWhile_sublist (l := cs) (· != rawMark)).length_le
        simp at *
        omega
    · split at h
      · cases h
        exact (List.dropWhile_sublist _).length_le
      · cases h

/-- What stands in an action up to its closing braces: the words, whether it trims the text after
it, and that text. A word must follow a blank; `spaced` says whether one was just seen. -/
structure Words where
  words : List Word
  trimsRight : Bool
  rest : List Char

/-- Reads the words of an action. -/
def readWords (spaced : Bool) (cs : List Char) : Except SyntaxFault Words :=
  match cs with
  | [] => .error .unclosedAction
  | '}' :: '}' :: rest => .ok ⟨[], false, rest⟩
  | c :: rest =>
    if c == '-' && spaced && rest.take 2 == ['}', '}'] then .ok ⟨[], true, rest.drop 2⟩
    else if Text.isSpace c then readWords true rest
    else if !spaced then .error (.missingSpace c)
    else
      match _h : readWord c rest with
      | .error fault => .error fault
      | .ok (word, after) =>
        (readWords false after).map fun r => { r with words := word :: r.words }
termination_by cs.length
decreasing_by
  · simp
  · have := length_readWord_le _h
    simp
    omega

/-- Reading words shrinks the text. -/
theorem length_readWords_le {spaced : Bool} {cs : List Char} {r : Words}
    (h : readWords spaced cs = .ok r) : r.rest.length ≤ cs.length := by
  fun_induction readWords spaced cs generalizing r with
  | case1 => cases h
  | case2 =>
    cases h
    simp
    omega
  | case3 =>
    cases h
    simp
    omega
  | case4 _ c rest _ _ _ ih =>
    have := ih h
    simp
    omega
  | case5 => cases h
  | case6 => cases h
  | case7 _ c rest _ _ _ _ word after hw ih =>
    obtain ⟨_, hr, rfl⟩ := map_eq_ok_iff.1 h
    have := ih hr
    have := length_readWord_le hw
    simp
    omega

/-! ## Actions -/

/-- The arguments of a call, which must all be texts. -/
def arguments : List Word → Except SyntaxFault (List String)
  | [] => .ok []
  | .text s :: rest => (arguments rest).map (s :: ·)
  | .name s :: _ => .error (.operandNotText s)

/-- The node that the words of an action make. -/
def nodeOfWords (line : Nat) : List Word → Except SyntaxFault Node
  | [] => .error .emptyAction
  | [.text s] => .ok (.literal s)
  | .text s :: _ :: _ => .error (.argumentToText s)
  | .name name :: rest => (arguments rest).map fun args => .call ⟨name, args, line⟩

/-- What follows the next `*/`. -/
def afterStarSlash : List Char → Option (List Char)
  | [] => none
  | '*' :: '/' :: rest => some rest
  | _ :: rest => afterStarSlash rest

/-- What stands between braces: a node unless it is a comment, and what it trims. -/
structure Action where
  node : Option Node
  trimsLeft : Bool
  trimsRight : Bool
  rest : List Char

/-- A comment, from its `/*` on. -/
def readComment (trimsLeft : Bool) (cs : List Char) : Except SyntaxFault Action :=
  match afterStarSlash cs with
  | none => .error .unclosedComment
  | some after =>
    if after.take 2 == ['}', '}'] then .ok ⟨none, trimsLeft, false, after.drop 2⟩
    else
      let closing := after.dropWhile Text.isSpace
      if closing.length < after.length && closing.take 3 == ['-', '}', '}'] then
        .ok ⟨none, trimsLeft, true, closing.drop 3⟩
      else .error .textAfterComment

/-- An action that is no comment. -/
def readCommand (line : Nat) (trimsLeft : Bool) (cs : List Char) : Except SyntaxFault Action :=
  match readWords true cs with
  | .error fault => .error fault
  | .ok r => (nodeOfWords line r.words).map fun node => ⟨some node, trimsLeft, r.trimsRight, r.rest⟩

/-- Whether a text starts a comment. -/
def opensComment (cs : List Char) : Bool :=
  cs.take 2 == ['/', '*']

/-- What follows opening braces on a line. -/
def readAction (line : Nat) (cs : List Char) : Except SyntaxFault Action :=
  match cs with
  | '-' :: c :: rest =>
    if Text.isSpace c then
      if opensComment rest then readComment true rest else readCommand line true (c :: rest)
    else readCommand line false cs
  | _ => if opensComment cs then readComment false cs else readCommand line false cs

/-- What follows the end of a comment is no longer than the text. -/
theorem length_afterStarSlash_le {cs rest : List Char} (h : afterStarSlash cs = some rest) :
    rest.length ≤ cs.length := by
  fun_induction afterStarSlash cs with
  | case1 => cases h
  | case2 =>
    cases h
    simp
    omega
  | case3 c rest' _ ih =>
    have := ih h
    simp
    omega

/-- Reading a comment shrinks the text. -/
theorem length_readComment_le {t : Bool} {cs : List Char} {a : Action}
    (h : readComment t cs = .ok a) : a.rest.length ≤ cs.length := by
  unfold readComment at h
  split at h
  · cases h
  · rename_i after heq
    have := length_afterStarSlash_le heq
    split at h
    · cases h
      simp
      omega
    · have := (List.dropWhile_sublist (l := after) Text.isSpace).length_le
      simp only at h
      split at h <;> cases h
      simp
      omega

/-- Reading a command shrinks the text. -/
theorem length_readCommand_le {line : Nat} {t : Bool} {cs : List Char} {a : Action}
    (h : readCommand line t cs = .ok a) : a.rest.length ≤ cs.length := by
  unfold readCommand at h
  split at h
  · cases h
  · rename_i r hr
    have := length_readWords_le hr
    obtain ⟨_, _, rfl⟩ := map_eq_ok_iff.1 h
    exact this

/-- Reading an action does not lengthen the text. -/
theorem length_readAction_le {line : Nat} {cs : List Char} {a : Action}
    (h : readAction line cs = .ok a) : a.rest.length ≤ cs.length := by
  unfold readAction at h
  split at h
  · split at h
    · split at h
      · have := length_readComment_le h
        simp
        omega
      · have := length_readCommand_le h
        simp at this ⊢
        omega
    · exact length_readCommand_le h
  · split at h
    · exact length_readComment_le h
    · exact length_readCommand_le h

/-! ## Whole templates -/

/-- The text before the next opening braces, and what follows them if there are any. -/
def splitOpen : List Char → List Char × Option (List Char)
  | [] => ([], none)
  | '{' :: '{' :: rest => ([], some rest)
  | c :: rest => (c :: (splitOpen rest).1, (splitOpen rest).2)

/-- What follows opening braces is shorter than the text by these. -/
theorem length_splitOpen {cs body : List Char} (h : (splitOpen cs).2 = some body) :
    body.length + 2 ≤ cs.length := by
  fun_induction splitOpen cs with
  | case1 => cases h
  | case2 =>
    cases h
    simp
  | case3 c rest _ ih =>
    have := ih h
    simp
    omega

/-- A text without opening braces is not split. -/
theorem splitOpen_none {cs : List Char} (h : (splitOpen cs).2 = none) : (splitOpen cs).1 = cs := by
  fun_induction splitOpen cs with
  | case1 => rfl
  | case2 => cases h
  | case3 c rest _ ih => rw [ih h]

/-- The number of line ends in a text. -/
def lineEnds (cs : List Char) : Nat :=
  cs.count '\n'

/-- The node of a text, trimmed on the sides where an action asks for it; none if it is empty. -/
def textNodes (trimsStart trimsEnd : Bool) (cs : List Char) : List Node :=
  let cs := if trimsStart then Text.trimStart Text.isSpace cs else cs
  let cs := if trimsEnd then Text.trimEnd Text.isSpace cs else cs
  if cs.isEmpty then [] else [.text (String.ofList cs)]

/-- The nodes of the part of a template that starts on a line, after an action that may trim it. -/
def parseFrom (line : Nat) (trimsStart : Bool) (cs : List Char) : Except Error (List Node) :=
  match _hs : (splitOpen cs).2 with
  | none => .ok (textNodes trimsStart false (splitOpen cs).1)
  | some body =>
    let here := line + lineEnds (splitOpen cs).1
    match _ha : readAction here body with
    | .error fault => .error (.malformed here fault)
    | .ok action =>
      let passed := body.take (body.length - action.rest.length)
      (parseFrom (here + lineEnds passed) action.trimsRight action.rest).map fun nodes =>
        textNodes trimsStart action.trimsLeft (splitOpen cs).1 ++ action.node.toList ++ nodes
termination_by cs.length
decreasing_by
  have := length_splitOpen _hs
  have := length_readAction_le _ha
  omega

/-- The nodes of a template. -/
def parse (text : String) : Except Error (List Node) :=
  parseFrom 1 false text.toList

end Stencil.Template
